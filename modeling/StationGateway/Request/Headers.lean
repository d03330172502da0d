import StationGateway.Text.Split

/-!
# Request headers

The names of headers are the same in small and capital letters. Of a header that is given several
times the first one counts.
-/

namespace StationGateway

/-- The headers of a request, in order. -/
abbrev Headers := List (String × String)

namespace Headers

/-- A name in small letters. -/
def foldName (name : String) : String :=
  String.ofList (name.toList.map Char.toLower)

/-- The value of a header. -/
def value? (headers : Headers) (name : String) : Option String :=
  (headers.find? fun header => foldName header.1 = name).map (·.2)

/-- Whether a value can be read: it has nothing but visible ASCII characters, blanks and tabs. -/
def isReadable (value : String) : Bool :=
  value.toList.all fun char => (0x20 ≤ char.toNat && char.toNat < 0x7F) || char = '\t'

/-- The value of a header, if it can be read. -/
def text? (headers : Headers) (name : String) : Option String :=
  (headers.value? name).filter isReadable

end Headers

end StationGateway
