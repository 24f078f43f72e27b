import ObcZero.QuotedScan
import ObcZero.UplinkCore
import ObcZero.FrameSearchCore

/-!
How the host reads the tables of an image out of what the debugger prints of them
(`harness/runner/tlm_decode.py`, `harness/runner/uplink.py`; the two files share these
functions), and the form the printed tables have.
-/

namespace ObcZero

open QuotedScan

namespace TableText

def isSpace (ch : Char) : Bool :=
  (9 ≤ ch.toNat && ch.toNat ≤ 13) || (28 ≤ ch.toNat && ch.toNat ≤ 32) || ch.toNat == 0x85 ||
    ch.toNat == 0xA0 || ch.toNat == 0x1680 || (0x2000 ≤ ch.toNat && ch.toNat ≤ 0x200A) ||
    ch.toNat == 0x2028 || ch.toNat == 0x2029 || ch.toNat == 0x202F || ch.toNat == 0x205F ||
    ch.toNat == 0x3000

def strip (text : List Char) : List Char := (text.dropWhile isSpace).rdropWhile isSpace

def removePrefixBrace : List Char → List Char
  | '{' :: rest => rest
  | text => text

def removeSuffixBrace (text : List Char) : List Char :=
  if text.getLast? = some '}' then text.dropLast else text

/-- `text.strip().removeprefix("{").removesuffix("}")`. -/
def unbraced (text : List Char) : List Char := removeSuffixBrace (removePrefixBrace (strip text))

def before (ch : Char) (text : List Char) : List Char := text.takeWhile fun other => other ≠ ch

/-- `text.split(ch, 1)[1]`, for a text that has the character. -/
def after (ch : Char) (text : List Char) : List Char :=
  (text.dropWhile fun other => other ≠ ch).tail

def digitValue (base : Nat) (ch : Char) : Option Nat :=
  let value :=
    if ch.isDigit then some (ch.toNat - 48)
    else if 'a' ≤ ch ∧ ch ≤ 'f' then some (ch.toNat - 87)
    else if 'A' ≤ ch ∧ ch ≤ 'F' then some (ch.toNat - 55)
    else none
  value.filter (· < base)

def digitsValue (base : Nat) (text : List Char) : Option Nat :=
  if (text.splitOn '_').all (! ·.isEmpty) then
    (text.filter (· ≠ '_')).foldlM (fun total ch => (digitValue base ch).map (base * total + ·)) 0
  else none

def basedValue (base : Nat) : List Char → Option Nat
  | '_' :: rest => digitsValue base rest
  | text => digitsValue base text

/-- A decimal literal starts with a zero only where it is zero. -/
def magnitude : List Char → Option Nat
  | '0' :: 'x' :: rest => basedValue 16 rest
  | '0' :: 'X' :: rest => basedValue 16 rest
  | '0' :: 'o' :: rest => basedValue 8 rest
  | '0' :: 'O' :: rest => basedValue 8 rest
  | '0' :: 'b' :: rest => basedValue 2 rest
  | '0' :: 'B' :: rest => basedValue 2 rest
  | text => (digitsValue 10 text).filter fun value => value = 0 ∨ text.head? ≠ some '0'

/-- `int(text, 0)`, over the ASCII digits. -/
def intBase0 (text : List Char) : Option Int :=
  match strip text with
  | '-' :: rest => (magnitude rest).map fun value => -(value : Int)
  | '+' :: rest => (magnitude rest).map fun value => (value : Int)
  | text => (magnitude text).map fun value => (value : Int)

def scalar (text : List Char) : Option Int := intBase0 (strip (before '\'' text))

structure MemberScan where
  quoting : Quoting
  depth : Int
  part : List Char
  parts : List (List Char)

/-- One turn of the loop of `_members`. Its first three branches, the escapes and the
quotes, are those of `Quoting.step`, and leave the character in the part. -/
def membersStep (scan : MemberScan) (ch : Char) : MemberScan :=
  let kept := { scan with quoting := scan.quoting.step ch, part := scan.part ++ [ch] }
  if scan.quoting.bare then
    if ch = '{' ∨ ch = '[' then { kept with depth := scan.depth + 1 }
    else if ch = '}' ∨ ch = ']' then { kept with depth := scan.depth - 1 }
    else if scan.depth = 0 ∧ ch = ',' then
      { scan with part := [], parts := scan.parts ++ [scan.part] }
    else kept
  else kept

def memberScan (record : List Char) : MemberScan :=
  (unbraced record).foldl membersStep { quoting := outside, depth := 0, part := [], parts := [] }

def setItem (dict : List (List Char × List Char)) (item : List Char × List Char) :
    List (List Char × List Char) :=
  if dict.any (·.1 == item.1) then
    dict.map fun entry => if entry.1 == item.1 then item else entry
  else dict ++ [item]

def entryOf (part : List Char) : Option (List Char × List Char) :=
  if '=' ∈ part then some (strip (before '=' part), strip (after '=' part)) else none

def members (record : List Char) : List (List Char × List Char) :=
  let scan := memberScan record
  ((scan.parts ++ [scan.part]).filterMap entryOf).foldl setItem []

structure RecordScan where
  quoting : Quoting
  depth : Int
  cur : List Char
  out : List (List Char)

def RecordScan.keep (ch : Char) (scan : RecordScan) : RecordScan :=
  if 0 < scan.depth then { scan with cur := scan.cur ++ [ch] } else scan

def recordsStep (scan : RecordScan) (ch : Char) : RecordScan :=
  let read := { scan with quoting := scan.quoting.step ch }
  if scan.quoting.bare then
    if ch = '{' then { read with depth := scan.depth + 1 }.keep ch
    else if ch = '}' then
      if scan.depth - 1 = 0 then
        { scan with depth := 0, cur := [], out := scan.out ++ [scan.cur ++ [ch]] }
      else { read with depth := scan.depth - 1 }.keep ch
    else read.keep ch
  else read.keep ch

def records (array : List Char) : List (List Char) :=
  ((unbraced array).foldl recordsStep { quoting := outside, depth := 0, cur := [], out := [] }).out

end TableText

end ObcZero
