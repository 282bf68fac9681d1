import Cryptoki.Status.Table
import Cryptoki.Text.Blank
import Cryptoki.Text.Quoted

/-! Reading a table of status names from a text with one `code=name` entry a line. -/
namespace Cryptoki.StatusTable

/-- The text without the zero-and-letter markers at its start, however often they stand there. -/
def dropMarkers (letter : Char) : List Char → List Char
  | '0' :: c :: cs => if c = letter then dropMarkers letter cs else '0' :: c :: cs
  | cs => cs

/-- At least one digit, each of base 16. -/
def hexNumber? (cs : List Char) : Option Nat :=
  if cs = [] then none
  else cs.foldl (fun acc c => acc.bind fun n => (hexDigitValue? c).map (16 * n + ·)) (some 0)

/-- A number of the size of a word; a plus sign may stand before its digits. -/
def hexWord? (cs : List Char) : Option Word :=
  let digits := match cs with
    | '+' :: cs => cs
    | cs => cs
  (hexNumber? digits).bind fun n => if n < UInt64.size then some (UInt64.ofNat n) else none

/-- The entry of a line: all before its first equals sign is the code, all after it the name. -/
def entry? (line : List Char) : Option (Word × String) :=
  match line.dropWhile (· ≠ '=') with
  | [] => none
  | _ :: rest => do
    let code := trim (line.takeWhile (· ≠ '='))
    let code ← hexWord? (dropMarkers 'X' (dropMarkers 'x' code))
    let name := trim rest
    if name = [] then none else some (code, String.ofList name)

/-- What is worth telling about a text that was read. -/
inductive Warning where
  | malformed (line : Nat) (text : String)
  | empty
  deriving DecidableEq, Repr

def Warning.message : Warning → String
  | .malformed line text =>
    "status code name table, line " ++ decimal line ++ ": malformed entry " ++ quoted text
  | .empty => "status code name table is empty, codes will render as hexadecimal"

/-- Blank lines and lines that begin with a number sign hold no entry. -/
def isRemark (line : List Char) : Bool :=
  match line with
  | [] => true
  | c :: _ => c = '#'

/-- One line, already trimmed, read into the table and the warnings so far. -/
def readLine (acc : StatusTable × List Warning) (number : Nat) (line : List Char) :
    StatusTable × List Warning :=
  if isRemark line then acc
  else match entry? line with
    | some (code, name) => (acc.1.insert code name, acc.2)
    | none => (acc.1, acc.2 ++ [.malformed number (String.ofList line)])

def readLines (acc : StatusTable × List Warning) (number : Nat) :
    List (List Char) → StatusTable × List Warning
  | [] => acc
  | l :: ls => readLines (readLine acc number (trim l)) (number + 1) ls

/-- No table where no line holds an entry; a later entry of a code takes the place of an earlier. -/
def parse (text : String) : Option StatusTable × List Warning :=
  let (table, warnings) := readLines (empty, []) 1 (lines text.toList)
  if table.entries = [] then (none, warnings ++ [.empty]) else (some table, warnings)

end Cryptoki.StatusTable
