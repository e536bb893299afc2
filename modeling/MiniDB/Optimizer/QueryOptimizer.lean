import MiniDB.Executors.SeqScanExecutor
import MiniDB.Foundation.Pattern

/-!
# The query optimizer

`QueryOptimizer` reads a number of days from the text of a query and infers the layer
that has to be scanned. A query is its bytes; the regular expressions ignore the case
of ASCII letters, and the Chinese words are their UTF-8 bytes. An outcome of `none` is
the exception that `std::stoi` throws.
-/

namespace MiniDB.Optimizer

open Foundation Log Executors

/-! ## The regular expressions -/

/-- `std::tolower` in the C locale. -/
def toLower (byte : UInt8) : UInt8 := if 65 ≤ byte ∧ byte ≤ 90 then byte + 32 else byte

/-- Equal under `icase`. -/
def sameLetter (letter byte : UInt8) : Bool := toLower letter == toLower byte

/-- `\s`. -/
def isSpace (byte : UInt8) : Bool := byte = 32 || (9 ≤ byte && byte ≤ 13)

/-- `\d`. -/
def isDigit (byte : UInt8) : Bool := 48 ≤ byte && byte ≤ 57

/-- A word of a regular expression. -/
def letters (text : ByteString) : Pattern UInt8 := .word sameLetter text

/-- `近`. -/
def nearBytes : ByteString := [0xE8, 0xBF, 0x91]

/-- `最近`. -/
def nearestBytes : ByteString := [0xE6, 0x9C, 0x80] ++ nearBytes

/-- `天`. -/
def dayBytes : ByteString := [0xE5, 0xA4, 0xA9]

/-- `(\d+)\s*(?:days?|天)`. -/
def numDays : Pattern UInt8 :=
  .seq (.group (.some isDigit)) (.seq (.many isSpace)
    (.alt (.seq (letters (ascii "day")) (.optional (letters (ascii "s")))) (letters dayBytes)))

/-- `(?:last|past|recent|近|最近)\s*(\d+)\s*(?:days?|天)`. -/
def lastDays : Pattern UInt8 :=
  .seq (.alt (letters (ascii "last")) (.alt (letters (ascii "past"))
      (.alt (letters (ascii "recent")) (.alt (letters nearBytes) (letters nearestBytes)))))
    (.seq (.many isSpace) numDays)

/-! ## QueryOptimizer -/

/-- The number that decimal digits stand for. -/
def decimal (digits : ByteString) : Nat :=
  digits.foldl (fun value digit => 10 * value + (digit.toNat - 48)) 0

/-- `std::stoi` of decimal digits. `none` is `std::out_of_range`. -/
def stoi (digits : ByteString) : Option Int :=
  if decimal digits ≤ 2147483647 then some (decimal digits) else none

/-- `QueryOptimizer`. -/
structure QueryOptimizer where
  hotThresholdDays : Int := 3

namespace QueryOptimizer

/-- `QueryOptimizer::ParseTimeConditionDays`. -/
def parseTimeConditionDays (query : ByteString) : Option Int :=
  match lastDays.search query with
  | some (digits :: _) => stoi digits
  | _ =>
    match numDays.search query with
    | some (digits :: _) => stoi digits
    | _ => some (-1)

/-- `QueryOptimizer::InferTargetLayer`. -/
def inferTargetLayer (optimizer : QueryOptimizer) (query : ByteString) : Option DataLayer :=
  (parseTimeConditionDays query).map fun days =>
    if days < 0 then .both
    else if days ≤ optimizer.hotThresholdDays then .hot
    else .cold

end QueryOptimizer

end MiniDB.Optimizer
