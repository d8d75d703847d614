import LogRelay.Http.Url

/-!
Forms: fields with their values, in the encoding that browsers send them in.
-/

namespace LogRelay.Http.Form

def isPlain (b : UInt8) : Bool :=
  let c := Char.ofNat b.toNat
  c.isAlphanum || c ∈ ['*', '-', '.', '_']

def escape (s : String) : String :=
  String.ofList ((Text.Utf8.encode s).flatMap fun b =>
    if isPlain b then [Char.ofNat b.toNat] else if b = 32 then ['+'] else Url.percentByte b)

def render (fields : List (String × String)) : String :=
  "&".intercalate (fields.map fun (name, value) => escape name ++ "=" ++ escape value)

end LogRelay.Http.Form
