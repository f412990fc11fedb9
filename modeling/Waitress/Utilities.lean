import Waitress.RFC7230

/-!
# Utilities

The end of a message head, quoted strings, dates and the errors that are
answered to a client.
-/

namespace Waitress

def doubleNewline : Bytes := [13, 10, 13, 10]

/-- The position just after a double newline. -/
def findDoubleNewline (s : Bytes) : Option Nat :=
  (Search.find doubleNewline s).map (· + 4)

theorem findDoubleNewline_eq_some {s : Bytes} {pos : Nat} :
    findDoubleNewline s = some pos ↔
      ∃ start, Search.find doubleNewline s = some start ∧ start + 4 = pos := by
  simp [findDoubleNewline]

theorem findDoubleNewline_eq_none {s : Bytes} :
    findDoubleNewline s = none ↔ Search.find doubleNewline s = none := by
  simp [findDoubleNewline]

theorem findDoubleNewline_append {s : Bytes} {pos : Nat} (found : findDoubleNewline s = some pos)
    (more : Bytes) : findDoubleNewline (s ++ more) = some pos := by
  obtain ⟨start, occurs, rfl⟩ := findDoubleNewline_eq_some.mp found
  exact findDoubleNewline_eq_some.mpr ⟨start, Search.find_append occurs more, rfl⟩

theorem findDoubleNewline_bounds {s : Bytes} {pos : Nat} (found : findDoubleNewline s = some pos) :
    4 ≤ pos ∧ pos ≤ s.length := by
  obtain ⟨start, occurs, rfl⟩ := findDoubleNewline_eq_some.mp found
  exact ⟨by omega, Search.find_add_length_le occurs⟩

theorem findDoubleNewline_late {s more : Bytes} {pos : Nat}
    (absent : findDoubleNewline s = none) (found : findDoubleNewline (s ++ more) = some pos) :
    s.length < pos := by
  obtain ⟨start, occurs, rfl⟩ := findDoubleNewline_eq_some.mp found
  exact Search.length_lt_of_find_append (findDoubleNewline_eq_none.mp absent) occurs

/-- The byte that completes the first double newline is the last one of it. -/
theorem findDoubleNewline_snoc {s : Bytes} {x : UInt8} {pos : Nat}
    (absent : findDoubleNewline s = none) (found : findDoubleNewline (s ++ [x]) = some pos) :
    pos = s.length + 1 := by
  obtain ⟨start, occurs, rfl⟩ := findDoubleNewline_eq_some.mp found
  exact Search.find_snoc (findDoubleNewline_eq_none.mp absent) occurs

theorem findDoubleNewline_take {s : Bytes} {pos : Nat} (found : findDoubleNewline s = some pos) :
    findDoubleNewline (s.take pos) = some pos := by
  have bounds := findDoubleNewline_bounds found
  have whole : findDoubleNewline (s.take pos ++ s.drop pos) = some pos := by
    rwa [List.take_append_drop]
  cases cut : findDoubleNewline (s.take pos) with
  | none =>
      have late := findDoubleNewline_late cut whole
      rw [List.length_take] at late
      omega
  | some other => rw [← whole, findDoubleNewline_append cut]

structure GmTime where
  year : Nat
  month : Nat
  day : Nat
  hh : Nat
  mm : Nat
  ss : Nat
  wd : Nat
  deriving DecidableEq, Repr

def weekdayname : List String := ["Mon", "Tue", "Wed", "Thu", "Fri", "Sat", "Sun"]

/-- The first entry, which is `None`, is never used. -/
def monthname : List String :=
  ["", "Jan", "Feb", "Mar", "Apr", "May", "Jun", "Jul", "Aug", "Sep", "Oct", "Nov", "Dec"]

def padded (width : Nat) (fill : Char) (n : Nat) : Str :=
  List.replicate (width - (natStr n).length) fill ++ natStr n

/-- `build_http_date`, from the fields of the time. -/
def buildHttpDate (time : GmTime) : Str :=
  (weekdayname.getD time.wd "").toList ++ ", ".toList ++ padded 2 '0' time.day ++ " ".toList ++
    (monthname.getD time.month "").toList ++ " ".toList ++ padded 4 ' ' time.year ++ " ".toList ++
    padded 2 '0' time.hh ++ ":".toList ++ padded 2 '0' time.mm ++ ":".toList ++
    padded 2 '0' time.ss ++ " GMT".toList

/-- `undquote`; the error is the message of the `ValueError`. -/
def undquote (value : Str) : Except Str Str :=
  let invalid := Except.error "Invalid quoting in value".toList
  if value.head? = some '"' ∧ value.getLast? = some '"' then
    match quotedStringRe.matchPrefix? value with
    | some (_, []) =>
        .ok (quotedPairRe.substitute (fun captures => (captures.lookup "1").getD [])
          value.tail.dropLast)
    | _ => invalid
  else if value.head? ≠ some '"' ∧ value.getLast? ≠ some '"' then .ok value
  else invalid

structure Error where
  code : Nat
  reason : Str
  body : Str
  /-- UTF-8 has no lone surrogates, which a body may contain. -/
  encodable : Bool := true
  deriving DecidableEq, Repr

namespace Error

def badRequest (body : Str) : Error := { code := 400, reason := "Bad Request".toList, body }

def requestHeaderFieldsTooLarge (body : Str) : Error :=
  { code := 431, reason := "Request Header Fields Too Large".toList, body }

def requestEntityTooLarge (body : Str) : Error :=
  { code := 413, reason := "Request Entity Too Large".toList, body }

def internalServerError (body : Str) (encodable : Bool) : Error :=
  { code := 500, reason := "Internal Server Error".toList, body, encodable }

def serverNotImplemented (body : Str) : Error :=
  { code := 501, reason := "Not Implemented".toList, body }

/-- Status line, headers and body of the response; the body must be encodable. -/
def toResponse (error : Error) (ident : Option Str) : Str × List (Str × Str) × Bytes :=
  let status := natStr error.code ++ " ".toList ++ error.reason
  let body := error.reason ++ "\r\n\r\n".toList ++ error.body
  let ident := match ident with
    | some name => if name = [] then "server".toList else name
    | none => "server".toList
  let tag := "\r\n\r\n(generated by ".toList ++ ident ++ ")".toList
  (status, [("Content-Type".toList, "text/plain; charset=utf-8".toList)],
    (body ++ tag).flatMap String.utf8EncodeChar)

end Error

end Waitress
