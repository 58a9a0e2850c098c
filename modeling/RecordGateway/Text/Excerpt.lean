/-!
Cutting a text to a number of bytes without cutting a character, and joining a chain of texts only
as far as such a cut can show.
-/

namespace RecordGateway.Excerpt

/-- The longest beginning of the characters that takes at most `room` bytes. -/
def takeBytes (room : Nat) : List Char → List Char
  | [] => []
  | c :: rest => if c.utf8Size ≤ room then c :: takeBytes (room - c.utf8Size) rest else []

/-- The longest beginning of a text that takes at most `max` bytes. -/
def cut (max : Nat) (text : String) : String :=
  if text.utf8ByteSize ≤ max then text else String.ofList (takeBytes max text.toList)

/-- The texts joined by a separator, stopping once the result has `max` bytes. -/
def joinUpTo (max : Nat) (separator : String) (joined : String) : List String → String
  | [] => joined
  | next :: rest =>
    if max ≤ joined.utf8ByteSize then joined
    else joinUpTo max separator (joined ++ separator ++ next) rest

/-- All the texts joined by a separator. -/
def joinAll (separator : String) (head : String) (rest : List String) : String :=
  rest.foldl (fun joined next => joined ++ separator ++ next) head

end RecordGateway.Excerpt
