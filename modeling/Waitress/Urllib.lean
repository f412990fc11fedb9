import Waitress.Python

/-!
# `urllib.parse`

The two functions of the standard library that the parser calls on a request
target.  Newer versions of CPython also check what stands between the brackets
of an authority; that check is a parameter.
-/

namespace Waitress

/-- The interpreter, where its versions differ. -/
class CPython where
  /-- `_check_bracketed_netloc` of `urllib.parse`, where it exists. -/
  checkBracketedNetloc : Bytes → Bool

/-- An interpreter without the check. -/
@[reducible]
def CPython.unchecked : CPython := ⟨fun _ => true⟩

def unquoteToBytes : Bytes → Bytes
  | 37 :: high :: low :: rest =>
      match hexValue? high, hexValue? low with
      | some h, some l => UInt8.ofNat (16 * h + l) :: unquoteToBytes rest
      | _, _ => 37 :: unquoteToBytes (high :: low :: rest)
  | x :: rest => x :: unquoteToBytes rest
  | [] => []

structure SplitResult where
  scheme : Bytes
  netloc : Bytes
  path : Bytes
  query : Bytes
  fragment : Bytes
  deriving DecidableEq, Repr

def isAsciiAlpha (x : UInt8) : Bool := (65 ≤ x && x ≤ 90) || (97 ≤ x && x ≤ 122)

def isSchemeChar (x : UInt8) : Bool :=
  isAsciiAlpha x || (48 ≤ x && x ≤ 57) || x = 43 || x = 45 || x = 46

/-- The scheme before the first colon, if there is one, and the rest. -/
def splitScheme (url : Bytes) : Bytes × Bytes :=
  let candidate := url.takeWhile (· ≠ 58)
  if 58 ∈ url ∧ (candidate.head?.any isAsciiAlpha) = true ∧ candidate.all isSchemeChar = true then
    (Bytes.lower candidate, url.drop (candidate.length + 1))
  else ([], url)

/-- The authority behind `//`, if there is one, and the rest. -/
def splitNetloc (url : Bytes) : Bytes × Bytes :=
  if url.take 2 = ascii "//" then
    ((url.drop 2).takeWhile (· ∉ ascii "/?#"), (url.drop 2).dropWhile (· ∉ ascii "/?#"))
  else ([], url)

def urlsplit [CPython] (url : Bytes) : Except Exc SplitResult :=
  if url.any (128 ≤ ·) then .error .unicodeError
  else
    let stripped := (url.dropWhile (· ≤ 32)).filter (· ∉ ([9, 10, 13] : Bytes))
    let (scheme, rest) := splitScheme stripped
    let (netloc, rest) := splitNetloc rest
    if (91 ∈ netloc ∧ 93 ∉ netloc) ∨ (93 ∈ netloc ∧ 91 ∉ netloc) then .error .valueError
    else if 91 ∈ netloc ∧ 93 ∈ netloc ∧ CPython.checkBracketedNetloc netloc = false then
      .error .valueError
    else
      let (rest, fragment) := Bytes.partitionAt 35 rest
      let (path, query) := Bytes.partitionAt 63 rest
      .ok { scheme, netloc, path, query, fragment }

end Waitress
