import SqlCompose.Error
import SqlCompose.Value

/-!
# Signatures

A signature lists the parameters of a call: those that must be given, those with a default, whether any number of further values may follow, and those that are only given by name. Values are taken in order first and then by name.
-/

namespace SqlCompose

structure Signature where
  required : List Text
  optional : List (Text × Value)
  openEnded : Bool
  named : List (Text × Value)
  deriving Repr

/-- What the parameters of a call stand for, and the values that follow. -/
structure Arguments where
  given : List (Text × Value)
  rest : List Value
  deriving Repr

namespace Signature

def plain (required : List Text) (optional : List (Text × Value)) : Signature :=
  ⟨required, optional, false, []⟩

def none : Signature :=
  plain [] []

def spread (required : List Text) : Signature :=
  ⟨required, [], true, []⟩

def inOrder (signature : Signature) : List Text :=
  signature.required ++ signature.optional.map (·.1)

/-- Whether values in order and by name fit: not too many, no parameter twice, and none missing. -/
def fits (signature : Signature) (values : List Value) (named : List (Text × Value)) : Bool :=
  let order := signature.inOrder
  let unfilled := order.drop values.length ++ signature.named.map (·.1)
  (signature.openEnded || values.length ≤ order.length) &&
    named.all (fun (name, _) => unfilled.contains name) &&
    (signature.required.drop values.length).all fun name => (named.lookup name).isSome

def bind (signature : Signature) (values : List Value) (named : List (Text × Value)) : Except Error Arguments :=
  let order := signature.inOrder
  if signature.fits values named then
    .ok ⟨order.zip values ++ named ++ signature.optional ++ signature.named, values.drop order.length⟩
  else .error .badArgument

end Signature

namespace Arguments

def get (arguments : Arguments) (name : Text) : Value :=
  (arguments.given.lookup name).getD .null

end Arguments

end SqlCompose
