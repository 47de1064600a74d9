import SqlCompose.Fragment

/-!
# Named bind parameters

A client that binds by name gets the text with a colon and a name in place of every placeholder. The text is then read twice, as a whole, quoted or not.

The first reading finds the names that can be bound: a colon that follows neither a colon nor a backslash nor a word character, and the word after it, shortened by one character if a second colon follows. Every value must belong to such a name. The second reading finds the names that stand for a value in the final text. It is stricter: a dollar sign counts as part of a name, and a name that a second colon follows is none. The parameters are the names that both readings find.

Where a backslash protects a colon from being read so, the backslash is dropped in the end.
-/

namespace SqlCompose

/-- A text with named parameters, and the value of each name in the order of the names. -/
structure NamedClause where
  text : Text
  parameters : List (Text × Value)
  deriving Repr

namespace NamedClause

/-- A placeholder becomes a name that keeps its digits; all else stays. -/
def named : Token → Text
  | .placeholder digits => ":p" ++ digits
  | token => token.source

/-- The names in a text that follows a character: what stands behind each colon that may begin a name. -/
def namesAfter (mayFollow : Option Char → Bool) (name? : Text → Option Text) (before : Option Char) : Text → List Text
  | [] => []
  | c :: rest =>
    let found := if c = ':' && mayFollow before then name? rest else none
    found.toList ++ namesAfter mayFollow name? (some c) rest

def isNamePart (c : Char) : Bool :=
  Text.isWord c || c = '$'

def bindable (text : Text) : List Text :=
  namesAfter
    (fun before => before.all fun c => !(c = ':' || c = '\\' || Text.isWord c))
    (fun rest =>
      let run := rest.takeWhile Text.isWord
      let name := if (rest.drop run.length).head? == some ':' then run.dropLast else run
      if name.isEmpty then none else some name)
    none text

def used (text : Text) : List Text :=
  namesAfter
    (fun before => before.all fun c => !(c = ':' || c = '\\' || isNamePart c))
    (fun rest =>
      let run := rest.takeWhile isNamePart
      if run.isEmpty || (rest.drop run.length).head? == some ':' then none else some run)
    none text

/-- Names, each once, in ascending order of their code points. -/
def inOrder (names : List Text) : List Text :=
  names.eraseDups.mergeSort fun a b => !List.lex b a fun c d => c.toNat < d.toNat

/-- A backslash before a colon is dropped unless the word after the colon ends at another colon. -/
def unescape : Text → Text
  | '\\' :: ':' :: rest =>
    let after := rest.dropWhile isNamePart
    if after.head? == some ':' then '\\' :: ':' :: unescape rest else ':' :: unescape rest
  | c :: rest => c :: unescape rest
  | [] => []

end NamedClause

/-- The fragment with its values bound by name: the value of `$k` goes to the name `pk`. A name without a value has none to give. -/
def Fragment.toNamed (fragment : Fragment) : Except Error NamedClause :=
  let text := (Token.read fragment.text.content).flatMap NamedClause.named
  let bindable := NamedClause.bindable text
  let bound := fragment.values.mapIdx fun i value => ('p' :: Text.ofNat (i + 1), value)
  if bound.all fun entry => bindable.contains entry.1 then
    let names := NamedClause.inOrder ((NamedClause.used text).filter bindable.contains)
    .ok ⟨NamedClause.unescape text, names.map fun name => (name, (bound.lookup name).getD .null)⟩
  else .error .bindNameMissing

end SqlCompose
