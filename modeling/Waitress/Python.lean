import Waitress.Library.Search
import Waitress.Library.Dict
import Mathlib

/-!
# The Python values of the program

Byte strings are lists of bytes and strings are lists of code points.  The
methods follow CPython; the case mappings are exact wherever the text or the
result is in Latin-1, which is all that a message may contain.
-/

namespace Waitress

abbrev Bytes := List UInt8

abbrev Str := List Char

/-- Texts are looked up in lists by their characters. -/
instance : LawfulBEq Str := inferInstance

def ascii (text : String) : Bytes := text.toList.map fun c => UInt8.ofNat c.toNat

/-- Exceptions, as far as some handler of the program tells them apart. -/
inductive Exc where
  | parsingError (message : Str)
  | transferEncodingNotImplemented (message : Str)
  | valueError
  | unicodeError
  | assertionError
  | runtimeError
  | attributeError
  | indexError
  | osError
  | clientDisconnected
  /-- Any other exception derived from `Exception`. -/
  | exception
  /-- An exception outside of `Exception`, such as `SystemExit`. -/
  | baseException
  deriving DecidableEq, Repr

/-- Is it caught by `except Exception`? -/
def Exc.isException : Exc → Bool
  | .baseException => false
  | _ => true

def crlf : Bytes := [13, 10]

namespace Bytes

/-- The bytes that `bytes.strip()` removes. -/
def isSpace (x : UInt8) : Bool := x = 32 || (9 ≤ x && x ≤ 13)

def lstrip (s : Bytes) : Bytes := s.dropWhile isSpace

def rstrip (s : Bytes) : Bytes := (s.reverse.dropWhile isSpace).reverse

def stripChars (chars s : Bytes) : Bytes :=
  ((s.dropWhile (· ∈ chars)).reverse.dropWhile (· ∈ chars)).reverse

def upperByte (x : UInt8) : UInt8 := if 97 ≤ x && x ≤ 122 then x - 32 else x

def lowerByte (x : UInt8) : UInt8 := if 65 ≤ x && x ≤ 90 then x + 32 else x

def upper (s : Bytes) : Bytes := s.map upperByte

def lower (s : Bytes) : Bytes := s.map lowerByte

def replaceByte (old new : UInt8) (s : Bytes) : Bytes :=
  s.map fun x => if x = old then new else x

def splitLines (s : Bytes) : List Bytes :=
  match found : Search.find crlf s with
  | none => [s]
  | some position => s.take position :: splitLines (s.drop (position + 2))
termination_by s.length
decreasing_by
  have fits := Search.find_add_length_le found
  simp only [crlf, List.length_cons, List.length_nil] at fits
  rw [List.length_drop]
  omega

/-- `s.split(separator, 1)` when the separator occurs, else `(s, b"")`. -/
def partitionAt (separator : UInt8) (s : Bytes) : Bytes × Bytes :=
  (s.takeWhile (· ≠ separator), (s.dropWhile (· ≠ separator)).drop 1)

end Bytes

def decodeLatin1 (s : Bytes) : Str := s.map fun x => Char.ofNat x.toNat

def encodeLatin1 (s : Str) : Except Exc Bytes :=
  if s.all fun c => c.toNat < 256 then .ok (s.map fun c => UInt8.ofNat c.toNat)
  else .error .unicodeError

theorem toNat_ofNat {n : Nat} (small : n < 55296) : (Char.ofNat n).toNat = n := by
  have valid : n.isValidChar := .inl small
  rw [Char.ofNat, dif_pos valid, Char.toNat_ofNatAux]

theorem mem_decodeLatin1 {s : Bytes} {c : Char} :
    c ∈ decodeLatin1 s ↔ ∃ x ∈ s, c.toNat = x.toNat := by
  have code : ∀ x : UInt8, (Char.ofNat x.toNat).toNat = x.toNat := fun x =>
    toNat_ofNat (Nat.lt_trans x.toNat_lt (by decide))
  simp only [decodeLatin1, List.mem_map, ← Char.toNat_inj, code, eq_comm]

namespace Str

def lowerChar (c : Char) : Char :=
  if ('A' ≤ c && c ≤ 'Z') || (192 ≤ c.toNat && c.toNat ≤ 222 && c.toNat ≠ 215) then
    Char.ofNat (c.toNat + 32)
  else if c.toNat = 376 then Char.ofNat 255
  else if c.toNat = 7838 then Char.ofNat 223
  else if c.toNat = 8490 then 'k'
  else if c.toNat = 8491 then Char.ofNat 229
  else c

def lower (s : Str) : Str := s.map lowerChar

/-- The characters with an irregular title-case form. -/
def titleSpecial : List (Nat × Str) :=
  [(223, ['S', 's']), (255, [Char.ofNat 376]), (181, [Char.ofNat 924]), (305, ['I']), (383, ['S']),
    (64256, ['F', 'f']), (64257, ['F', 'i']), (64258, ['F', 'l']), (64259, ['F', 'f', 'i']),
    (64260, ['F', 'f', 'l']), (64261, ['S', 't']), (64262, ['S', 't'])]

/-- The title-case form, which `str.capitalize` gives to the first character. -/
def titleChar (c : Char) : Str :=
  if ('a' ≤ c && c ≤ 'z') || (224 ≤ c.toNat && c.toNat ≤ 254 && c.toNat ≠ 247) then
    [Char.ofNat (c.toNat - 32)]
  else (titleSpecial.lookup c.toNat).getD [c]

def capitalize : Str → Str
  | [] => []
  | c :: rest => titleChar c ++ lower rest

def stripChars (chars s : Str) : Str :=
  ((s.dropWhile (· ∈ chars)).reverse.dropWhile (· ∈ chars)).reverse

def split (separator : Char) : Str → List Str
  | [] => [[]]
  | c :: rest =>
      if c = separator then [] :: split separator rest
      else
        match split separator rest with
        | [] => [[c]]
        | first :: others => (c :: first) :: others

def join (separator : Str) : List Str → Str
  | [] => []
  | [part] => part
  | part :: rest => part ++ separator ++ join separator rest

def isSpace (c : Char) : Bool :=
  (9 ≤ c.toNat && c.toNat ≤ 13) || (28 ≤ c.toNat && c.toNat ≤ 32) || c.toNat = 133 ||
    c.toNat = 160 || c.toNat = 5760 || (8192 ≤ c.toNat && c.toNat ≤ 8202) ||
    c.toNat = 8232 || c.toNat = 8233 || c.toNat = 8239 || c.toNat = 8287 || c.toNat = 12288

def strip (s : Str) : Str := ((s.dropWhile isSpace).reverse.dropWhile isSpace).reverse

def lstripChars (chars s : Str) : Str := s.dropWhile (· ∈ chars)

def rstripChars (chars s : Str) : Str := (s.reverse.dropWhile (· ∈ chars)).reverse

def partition (separator : Char) (s : Str) : Str × Str × Str :=
  (s.takeWhile (· ≠ separator), (s.dropWhile (· ≠ separator)).take 1,
    (s.dropWhile (· ≠ separator)).drop 1)

/-- `s.rsplit(separator, 1)` of a text that contains the separator. -/
def rsplit (separator : Char) (s : Str) : Str × Str :=
  (((s.reverse.dropWhile (· ≠ separator)).drop 1).reverse,
    (s.reverse.takeWhile (· ≠ separator)).reverse)

end Str

/-- `xs[start:]`, where a negative bound counts from the end. -/
def sliceFrom {α : Type} (xs : List α) (start : Int) : List α :=
  if start < 0 then xs.drop (xs.length + start).toNat else xs.drop start.toNat

/-- `s[:stop]`, where a negative bound counts from the end. -/
def Bytes.sliceTo (s : Bytes) (stop : Int) : Bytes :=
  if stop < 0 then s.take (s.length + stop).toNat else s.take stop.toNat

def hexUpper (n : Nat) : Bytes := Bytes.upper ((Nat.toDigits 16 n).map fun c => UInt8.ofNat c.toNat)

def natStr (n : Nat) : Str := Nat.toDigits 10 n

def intStr : Int → Str
  | .ofNat n => natStr n
  | .negSucc n => '-' :: natStr (n + 1)

def digitValue? (c : Char) : Option Nat :=
  if '0' ≤ c && c ≤ '9' then some (c.toNat - 48) else none

/-- The value of a digit sequence, single underscores allowed between digits. -/
def digitsValue? : Nat → Str → Option Nat
  | value, [] => some value
  | value, '_' :: c :: rest =>
      (digitValue? c).bind fun d => digitsValue? (10 * value + d) rest
  | value, c :: rest => (digitValue? c).bind fun d => digitsValue? (10 * value + d) rest

def intMaxStrDigits : Nat := 4300

/-- `int(s)` of an unsigned decimal. -/
def natOfStr (s : Str) : Except Exc Nat :=
  match s with
  | [] => .error .valueError
  | c :: rest =>
      match (digitValue? c).bind fun d => digitsValue? d rest with
      | none => .error .valueError
      | some value =>
          if (s.filter (· ≠ '_')).length ≤ intMaxStrDigits then .ok value
          else .error .valueError

/-- The zeros of the decimal digits of Unicode. -/
def decimalZeros : List Nat :=
  [48, 1632, 1776, 1984, 2406, 2534, 2662, 2790, 2918, 3046, 3174, 3302, 3430, 3558, 3664, 3792,
    3872, 4160, 4240, 6112, 6160, 6470, 6608, 6784, 6800, 6992, 7088, 7232, 7248, 42528, 43216,
    43264, 43472, 43504, 43600, 44016, 65296, 66720, 68912, 69734, 69872, 69942, 70096, 70384,
    70736, 70864, 71248, 71360, 71472, 71904, 72016, 72784, 73040, 73120, 92768, 92864, 93008,
    120782, 120792, 120802, 120812, 120822, 123200, 123632, 125264, 130032]

def decimalToAscii (c : Char) : Char :=
  if c.toNat < 127 then c
  else if Str.isSpace c = true then ' '
  else
    match decimalZeros.find? fun first => first ≤ c.toNat && c.toNat < first + 10 with
    | some first => Char.ofNat (48 + (c.toNat - first))
    | none => '?'

def isAsciiSpace (c : Char) : Bool := (9 ≤ c.toNat && c.toNat ≤ 13) || c.toNat = 32

/-- What `int()` converts once the blanks around it are skipped. -/
def intText (s : Str) : Str :=
  (((s.map decimalToAscii).dropWhile isAsciiSpace).reverse.dropWhile isAsciiSpace).reverse

def intOfStr (s : Str) : Except Exc Int :=
  match intText s with
  | '-' :: rest => (natOfStr rest).map fun n => -(n : Int)
  | '+' :: rest => (natOfStr rest).map fun n => (n : Int)
  | text => (natOfStr text).map fun n => (n : Int)

def hexValue? (x : UInt8) : Option Nat :=
  if 48 ≤ x && x ≤ 57 then some (x.toNat - 48)
  else if 97 ≤ x && x ≤ 102 then some (x.toNat - 87)
  else if 65 ≤ x && x ≤ 70 then some (x.toNat - 55)
  else none

def hexNumber (digits : Bytes) : Nat :=
  digits.foldl (fun value x => 16 * value + (hexValue? x).getD 0) 0

/-- `int(s, 16)` of hexadecimal digits between white space. -/
def int16 (s : Bytes) : Nat := hexNumber s.rstrip.lstrip

end Waitress
