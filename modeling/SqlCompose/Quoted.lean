import SqlCompose.Text

/-!
# Quoted regions

SQL text is cut into quoted segments and the unquoted text between them. A quoted segment opens at a quote character that occurs again further on, and it ends at the first occurrence that is not one half of a doubled pair. A pair counts as doubled only if the quote character occurs once more after it; otherwise the first half of the pair closes the segment. A quote character that never occurs again opens nothing and stays in the unquoted text.
-/

namespace SqlCompose

/-- A part of a text, and whether quotes hold it together. -/
structure Segment where
  text : Text
  quoted : Bool
  deriving DecidableEq, Repr

namespace Quoted

def isQuote (c : Char) : Bool :=
  c = '\'' || c = '"' || c = '\x60'

/-- The unquoted text in front of further segments; no empty segment is made. -/
def outside (text : Text) (rest : List Segment) : List Segment :=
  if text.isEmpty then rest else ⟨text, false⟩ :: rest

/-- Reads on from a point outside quotes (`none`) or inside the quotes of a character, and gives the text up to the next change from one to the other with the segments that follow. -/
def scan : Option Char → Text → Text × List Segment
  | _, [] => ([], [])
  | none, c :: rest =>
    if isQuote c && rest.contains c then
      let (body, after) := scan (some c) rest
      ([], ⟨c :: body, true⟩ :: after)
    else
      let (text, after) := scan none rest
      (c :: text, after)
  | some quote, c :: rest =>
    if c = quote then
      match rest with
      | [] => ([c], [])
      | d :: tail =>
        if d = quote && tail.contains quote then
          let (body, after) := scan (some quote) tail
          (c :: d :: body, after)
        else
          let (text, after) := scan none (d :: tail)
          ([c], outside text after)
    else
      let (body, after) := scan (some quote) rest
      (c :: body, after)

def segments (text : Text) : List Segment :=
  let (first, rest) := scan none text
  outside first rest

/-! ### Nothing is lost -/

private theorem flatMap_outside (text : Text) (rest : List Segment) :
    (outside text rest).flatMap (·.text) = text ++ rest.flatMap (·.text) := by
  unfold outside
  split
  · next empty => simp [List.isEmpty_iff.mp empty]
  · simp

theorem flatMap_scan (state : Option Char) (text : Text) :
    (scan state text).1 ++ (scan state text).2.flatMap (·.text) = text := by
  fun_induction scan state text <;> simp_all [flatMap_outside]

theorem flatMap_segments (text : Text) : (segments text).flatMap (·.text) = text := by
  simpa [segments, flatMap_outside] using flatMap_scan none text

end Quoted

end SqlCompose
