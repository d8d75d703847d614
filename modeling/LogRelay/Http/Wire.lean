import LogRelay.Http.Exchange
import LogRelay.Text.Blank

/-!
Requests and answers as they are transferred over a connection that is closed after one exchange. An
answer ends with the connection unless it says how long its body is; one that ends within its head is
none.
-/

namespace LogRelay.Http

def Request.head (r : Request) (length : Nat) : List String :=
  [r.method.name ++ " " ++ r.url.target ++ " HTTP/1.1", "host: " ++ r.url.authority, "accept: */*",
    "connection: close", "content-length: " ++ toString length] ++
    r.headers.map fun (name, value) => name ++ ": " ++ value

def Request.bytes (r : Request) : List UInt8 :=
  let body := Text.Utf8.encode r.body.text
  Text.Utf8.encode ("\r\n".intercalate (r.head body.length ++ ["", ""])) ++ body

/-- The next line and what follows it. A line may end with a carriage return before its end. -/
def cutLine? : List UInt8 → Option (List UInt8 × List UInt8)
  | [] => none
  | 13 :: 10 :: rest => some ([], rest)
  | 10 :: rest => some ([], rest)
  | b :: rest => (cutLine? rest).map fun (line, after) => (b :: line, after)

theorem length_of_cutLine? {bytes line rest : List UInt8} (h : cutLine? bytes = some (line, rest)) :
    rest.length < bytes.length := by
  fun_induction cutLine? bytes generalizing line rest with
  | case1 => simp at h
  | case2 => simp only [Option.some.injEq, Prod.mk.injEq] at h; grind
  | case3 => simp only [Option.some.injEq, Prod.mk.injEq] at h; grind
  | case4 b rest' _ _ ih =>
    obtain ⟨⟨l, r⟩, hr, he⟩ := Option.map_eq_some_iff.1 h
    simp only [Prod.mk.injEq] at he
    obtain ⟨-, rfl⟩ := he
    have := ih hr
    simp; omega

/-- The lines up to the first empty one, and what follows it. -/
def cutHead? (bytes : List UInt8) : Option (List String × List UInt8) :=
  match h : cutLine? bytes with
  | none => none
  | some ([], rest) => some ([], rest)
  | some (line, rest) =>
    have := length_of_cutLine? h
    (cutHead? rest).map fun (lines, after) => (Text.Utf8.decodeLossy line :: lines, after)
termination_by bytes.length

/-- Name, in lower case, and value of a header line. -/
def header (line : String) : String × String :=
  let name := line.toList.takeWhile (· ≠ ':')
  (String.ofList (name.map Char.toLower),
    Text.trim (String.ofList (line.toList.drop (name.length + 1))))

def statusOf? (line : String) : Option Nat :=
  match line.toList.splitOn ' ' with
  | _ :: status :: _ => if status = [] then none else digitsValue? 10 status
  | _ => none

/-- A body that comes in pieces, each after a line with its size, up to a piece of none. -/
def chunks? (bytes : List UInt8) : Option (List UInt8) :=
  match h : cutLine? bytes with
  | none => none
  | some (line, rest) =>
    have := length_of_cutLine? h
    let digits := (line.takeWhile (· ≠ 59)).map fun b => Char.ofNat b.toNat
    match digitsValue? 16 digits with
    | none => none
    | some 0 => if digits = [] then none else some []
    | some (size + 1) =>
      if rest.length < size + 1 then none
      else (chunks? ((rest.drop (size + 1)).dropWhile (fun b => b = 13 || b = 10))).map
        (rest.take (size + 1) ++ ·)
termination_by bytes.length
decreasing_by
  have := ((rest.drop (size + 1)).dropWhile_suffix (fun b => b = 13 || b = 10)).length_le
  simp only [List.length_drop] at this
  omega

/-- The length that a head says the body has, if it says one; `none` if that is no number. -/
def lengthOf? (headers : List (String × String)) : Option (Option Nat) :=
  match headers.lookup "content-length" with
  | none => some none
  | some text => (digitsValue? 10 text.toList).map some

/-- The body after a head, unless it is cut off. -/
def bodyOf? (headers : List (String × String)) (length : Option Nat) (rest : List UInt8) :
    Option (List UInt8) :=
  if headers.lookup "transfer-encoding" = some "chunked" then chunks? rest
  else
    match length with
    | none => some rest
    | some n => if n ≤ rest.length then some (rest.take n) else none

/-- The outcome that all the bytes of a connection tell of. -/
def Outcome.ofBytes (bytes : List UInt8) : Outcome :=
  match cutHead? bytes with
  | some (first :: lines, rest) =>
    match statusOf? first, lengthOf? (lines.map header) with
    | some status, some length =>
      match bodyOf? (lines.map header) length rest with
      | some body => .answered status body
      | none => .cutOff status
    | _, _ => .lost
  | _ => .lost

/-- The outcome if the bytes of a connection are cut short: `otherwise` unless the head has come. -/
def Outcome.ofPart (bytes : List UInt8) (otherwise : Outcome) : Outcome :=
  match cutHead? bytes with
  | some (first :: _, _) =>
    match statusOf? first with
    | some status => .cutOff status
    | none => otherwise
  | _ => otherwise

example : Outcome.ofBytes (Text.Utf8.encode "HTTP/1.1 200 OK\r\nContent-Length: 2\r\n\r\n{}") =
    .answered 200 (Text.Utf8.encode "{}") := by decide +kernel

end LogRelay.Http
