import Waitress.Library.Regex
import Waitress.Python

/-!
# Definitions of RFC 7230

The character classes and regular expressions.  They are compiled for bytes or
for strings, so a class is a test on the code of a symbol.
-/

namespace Waitress

section Classes

variable (n : Nat)

def hexdig : Bool := (48 ≤ n && n ≤ 57) || (97 ≤ n && n ≤ 102) || (65 ≤ n && n ≤ 70)

def digit : Bool := 48 ≤ n && n ≤ 57

def ws : Bool := n = 32 || n = 9

def alpha : Bool := (65 ≤ n && n ≤ 90) || (97 ≤ n && n ≤ 122)

/-- `[!#$%&'*+\-.^_`|~0-9A-Za-z]` -/
def tchar : Bool :=
  n = 33 || n = 35 || n = 36 || n = 37 || n = 38 || n = 39 || n = 42 || n = 43 || n = 45 ||
    n = 46 || n = 94 || n = 95 || n = 96 || n = 124 || n = 126 || digit n || alpha n

def obsText : Bool := 128 ≤ n && n ≤ 255

def vchar : Bool := 33 ≤ n && n ≤ 126

/-- The character after `[` is an escaped `]`, so that the backslash is not in the class. -/
def qdtext : Bool :=
  n = 9 || n = 32 || n = 33 || (35 ≤ n && n ≤ 91) || (93 ≤ n && n ≤ 126) || obsText n

def quotable : Bool := n = 9 || n = 32 || vchar n || obsText n

def fieldVchar : Bool := vchar n || obsText n

end Classes

section Expressions

variable {α : Type} (code : α → Nat)

def lit (n : Nat) : Regex α := .cls fun x => code x = n

def classOf (test : Nat → Bool) : Regex α := .cls fun x => test (code x)

def token : Regex α := .plus true (classOf code tchar)

/-- Optional white space, as little as possible. -/
def ows : Regex α := .star false (classOf code ws)

def quotedPair : Regex α := .seq (lit code 92) (.group "1" (classOf code quotable))

def quotedString : Regex α :=
  .seq (lit code 34)
    (.seq (.star true (.alt (classOf code qdtext) (quotedPair code))) (lit code 34))

def fieldContent : Regex α :=
  .seq (.plus true (classOf code fieldVchar))
    (.star true (.seq (.plus true (classOf code ws)) (.plus true (classOf code fieldVchar))))

def fieldValue : Regex α := .opt (fieldContent code)

/-- One `;name[=value]` of a chunk extension. -/
def chunkExtItem : Regex α :=
  .seq (lit code 59)
    (.seq (.group "extension" (token code))
      (.opt (.seq (lit code 61) (.group "value" (.alt (token code) (quotedString code))))))

def chunkExt : Regex α := .star true (chunkExtItem code)

end Expressions

/-- `ONLY_HEXDIG_RE`, to be matched under `^…$` -/
def onlyHexdigRe : Regex UInt8 := .plus true (classOf UInt8.toNat hexdig)

/-- `ONLY_DIGIT_RE`, to be matched under `^…$` -/
def onlyDigitRe : Regex UInt8 := .plus true (classOf UInt8.toNat digit)

/-- `HEADER_FIELD_RE`, to be matched under `^…$` -/
def headerFieldRe : Regex UInt8 :=
  .seq (.group "name" (token UInt8.toNat))
    (.seq (lit UInt8.toNat 58)
      (.seq (ows UInt8.toNat)
        (.seq (.group "value" (fieldValue UInt8.toNat)) (ows UInt8.toNat))))

def quotedPairRe : Regex Char := quotedPair Char.toNat

def quotedStringRe : Regex Char := quotedString Char.toNat

/-- `CHUNK_EXT_RE`, to be matched under `^…$` -/
def chunkExtRe : Regex UInt8 := chunkExt UInt8.toNat

/-- `regex.match(line)` for a pattern `^…$`. -/
def matchLine (regex : Regex UInt8) (line : Bytes) : Option (Regex.Captures UInt8) :=
  regex.lineMatch? 10 line

end Waitress
