import Mathlib.Computability.Language

/-!
The grammar of TOML 1.0 documents, with the paths of the tables and values they define. Whether a
table or a key is defined twice is not looked at.
-/

namespace AtomVibe.Toml

open scoped Computability

def oneOf (p : Char → Bool) : Language Char := {cs | ∃ c, p c = true ∧ cs = [c]}

def lit (s : String) : Language Char := {s.toList}

def opt (l : Language Char) : Language Char := 1 + l

def many (l : Language Char) : Language Char := l * l∗

def isSpace (c : Char) : Bool := c == ' ' || c == '\t'

def isPrinted (c : Char) : Bool := c == '\t' || (0x20 ≤ c.toNat && c.toNat != 0x7f)

def isDigit (c : Char) : Bool := '0' ≤ c && c ≤ '9'

def isHexDigit (c : Char) : Bool := isDigit c || ('a' ≤ c && c ≤ 'f') || ('A' ≤ c && c ≤ 'F')

def isBare (c : Char) : Bool :=
  isDigit c || ('a' ≤ c && c ≤ 'z') || ('A' ≤ c && c ≤ 'Z') || c == '-' || c == '_'

def Blanks (cs : List Char) : Prop := ∀ c ∈ cs, isSpace c = true

theorem blanks_nil : Blanks [] := by
  simp [Blanks]

def newline : Language Char := lit "\n" + lit "\r\n"

def comment : Language Char := lit "#" * (oneOf isPrinted)∗

def gap : Language Char := (oneOf isSpace + opt comment * newline)∗

section Scalars

def digit : Language Char := oneOf isDigit

def grouped (first rest : Char → Bool) : Language Char :=
  oneOf first * (oneOf rest + lit "_" * oneOf rest)∗

def sign : Language Char := oneOf fun c => c == '+' || c == '-'

def decimal : Language Char :=
  opt sign * (digit + oneOf (fun c => isDigit c && c != '0') *
    many (digit + lit "_" * digit))

def integer : Language Char :=
  decimal + lit "0x" * grouped isHexDigit isHexDigit +
    lit "0o" * grouped (fun c => '0' ≤ c && c ≤ '7') (fun c => '0' ≤ c && c ≤ '7') +
    lit "0b" * grouped (fun c => c == '0' || c == '1') (fun c => c == '0' || c == '1')

def float : Language Char :=
  let exponent := oneOf (fun c => c == 'e' || c == 'E') * opt sign * grouped isDigit isDigit
  let fraction := lit "." * grouped isDigit isDigit
  decimal * (exponent + fraction * opt exponent) + opt sign * (lit "inf" + lit "nan")

def dateTime : Language Char :=
  let date := digit ^ 4 * lit "-" * digit ^ 2 * lit "-" * digit ^ 2
  let time := digit ^ 2 * lit ":" * digit ^ 2 * lit ":" * digit ^ 2 * opt (lit "." * many digit)
  let offset := oneOf (fun c => c == 'Z' || c == 'z') + sign * digit ^ 2 * lit ":" * digit ^ 2
  date * oneOf (fun c => c == 'T' || c == 't' || c == ' ') * time * opt offset + date + time

def scalar : Language Char := integer + float + dateTime + lit "true"

end Scalars

section Strings

def escapes : List (Char × Char) :=
  [('b', '\x08'), ('t', '\t'), ('n', '\n'), ('f', '\x0c'), ('r', '\r'), ('"', '"'), ('\\', '\\')]

def hexValue (cs : List Char) : ℕ :=
  cs.foldl (fun n c => n * 16 +
    if isDigit c then c.toNat - '0'.toNat
    else if 'a' ≤ c then c.toNat - 'a'.toNat + 10 else c.toNat - 'A'.toNat + 10) 0

inductive BasicChar : List Char → Char → Prop
  | plain {c : Char} (printed : isPrinted c = true) (plain : c ≠ '"' ∧ c ≠ '\\') : BasicChar [c] c
  | escape {letter c : Char} (known : (letter, c) ∈ escapes) : BasicChar ['\\', letter] c
  | unit {letter : Char} {digits : List Char} (hex : ∀ c ∈ digits, isHexDigit c = true)
      (size : letter = 'u' ∧ digits.length = 4 ∨ letter = 'U' ∧ digits.length = 8)
      (scalar : (hexValue digits).isValidChar) :
      BasicChar ('\\' :: letter :: digits) (Char.ofNat (hexValue digits))

inductive BasicText : List Char → List Char → Prop
  | nil : BasicText [] []
  | cons {cs rest out : List Char} {c : Char} (head : BasicChar cs c) (tail : BasicText rest out) :
      BasicText (cs ++ rest) (c :: out)

def basicChar : Language Char := {cs | ∃ c, BasicChar cs c}

def basicString : Language Char := lit "\"" * basicChar∗ * lit "\""

def literalString : Language Char :=
  lit "'" * (oneOf fun c => isPrinted c && c != '\'')∗ * lit "'"

def severalLines (quote : Char) (content : Language Char) : Language Char :=
  let quotes := lit (String.ofList [quote]) + lit (String.ofList [quote, quote])
  let marks := lit (String.ofList [quote, quote, quote])
  marks * opt newline * (content∗ * (quotes * many content)∗ * opt quotes) * marks

def longBasicString : Language Char :=
  severalLines '"' (basicChar + newline +
    lit "\\" * (oneOf isSpace)∗ * newline * (oneOf isSpace + newline)∗)

def longLiteralString : Language Char :=
  severalLines '\'' (oneOf (fun c => isPrinted c && c != '\'') + newline)

def string : Language Char :=
  basicString + literalString + longBasicString + longLiteralString

end Strings

section Keys

abbrev Segment := List Char

inductive SimpleKey : List Char → Segment → Prop
  | bare {cs : List Char} (nonempty : cs ≠ []) (bare : ∀ c ∈ cs, isBare c = true) : SimpleKey cs cs
  | basic {cs out : List Char} (text : BasicText cs out) : SimpleKey ('"' :: (cs ++ ['"'])) out
  | literal {cs : List Char} (text : ∀ c ∈ cs, isPrinted c = true ∧ c ≠ '\'') :
      SimpleKey ('\'' :: (cs ++ ['\''])) cs

inductive Key : List Char → List Segment → Prop
  | one {cs : List Char} {k : Segment} (segment : SimpleKey cs k) : Key cs [k]
  | dotted {cs left right rest : List Char} {k : Segment} {ks : List Segment}
      (segment : SimpleKey cs k) (before : Blanks left) (after : Blanks right) (others : Key rest ks) :
      Key (cs ++ (left ++ '.' :: (right ++ rest))) (k :: ks)

end Keys

inductive Leaf where
  | off
  | other
  deriving DecidableEq

abbrev Leaves := List (List Segment × Leaf)

mutual

inductive ValueText : List Char → Leaves → Prop
  | off : ValueText "false".toList [([], .off)]
  | scalar {cs : List Char} (text : cs ∈ scalar) : ValueText cs [([], .other)]
  | string {cs : List Char} (text : cs ∈ string) : ValueText cs [([], .other)]
  | array {cs : List Char} (items : Items cs) : ValueText ('[' :: (cs ++ [']'])) [([], .other)]
  | emptyTable {cs : List Char} (blank : Blanks cs) :
      ValueText ('\x7b' :: (cs ++ ['\x7d'])) [([], .other)]
  | table {cs : List Char} {leaves : Leaves} (members : Members cs leaves) :
      ValueText ('\x7b' :: (cs ++ ['\x7d'])) leaves

inductive Items : List Char → Prop
  | none {cs : List Char} (blank : cs ∈ gap) : Items cs
  | last {before cs after : List Char} {leaves : Leaves} (left : before ∈ gap)
      (item : ValueText cs leaves) (right : after ∈ gap) : Items (before ++ (cs ++ after))
  | more {before cs after rest : List Char} {leaves : Leaves} (left : before ∈ gap)
      (item : ValueText cs leaves) (right : after ∈ gap) (others : Items rest) :
      Items (before ++ (cs ++ (after ++ ',' :: rest)))

inductive Members : List Char → Leaves → Prop
  | one {before cs after : List Char} {leaves : Leaves} (left : Blanks before)
      (member : Member cs leaves) (right : Blanks after) : Members (before ++ (cs ++ after)) leaves
  | more {before cs after rest : List Char} {leaves others : Leaves} (left : Blanks before)
      (member : Member cs leaves) (right : Blanks after) (tail : Members rest others) :
      Members (before ++ (cs ++ (after ++ ',' :: rest))) (leaves ++ others)

inductive Member : List Char → Leaves → Prop
  | mk {key left right cs : List Char} {path : List Segment} {leaves : Leaves}
      (name : Key key path) (before : Blanks left) (after : Blanks right)
      (value : ValueText cs leaves) :
      Member (key ++ (left ++ '=' :: (right ++ cs)))
        (leaves.map fun leaf => (path ++ leaf.1, leaf.2))

end

/-- What one expression says. `text` is the expression without the blanks in front. -/
inductive Item where
  | table (text : List Char) (path : List Segment)
  | tables (text : List Char) (path : List Segment)
  | entry (text : List Char) (leaves : Leaves)

def lineEnd : Language Char := (oneOf isSpace)∗ * opt comment

inductive Expression : List Char → List Item → Prop
  | empty {before cs : List Char} (left : Blanks before) (right : cs ∈ opt comment) :
      Expression (before ++ cs) []
  | table {before left key right after : List Char} {path : List Segment} (blank : Blanks before)
      (leftBlank : Blanks left) (name : Key key path) (rightBlank : Blanks right)
      (ends : after ∈ lineEnd) :
      Expression (before ++ '[' :: (left ++ (key ++ (right ++ ']' :: after))))
        [.table ('[' :: (left ++ (key ++ (right ++ ']' :: after)))) path]
  | tables {before left key right after : List Char} {path : List Segment} (blank : Blanks before)
      (leftBlank : Blanks left) (name : Key key path) (rightBlank : Blanks right)
      (ends : after ∈ lineEnd) :
      Expression (before ++ '[' :: '[' :: (left ++ (key ++ (right ++ ']' :: ']' :: after))))
        [.tables ('[' :: '[' :: (left ++ (key ++ (right ++ ']' :: ']' :: after)))) path]
  | entry {before cs after : List Char} {leaves : Leaves} (blank : Blanks before)
      (member : Member cs leaves) (ends : after ∈ lineEnd) :
      Expression (before ++ (cs ++ after)) [.entry (cs ++ after) leaves]

inductive Document : List Char → List Item → Prop
  | last {cs : List Char} {items : List Item} (expression : Expression cs items) :
      Document cs items
  | more {cs ending rest : List Char} {items others : List Item} (expression : Expression cs items)
      (separated : ending ∈ newline) (tail : Document rest others) :
      Document (cs ++ (ending ++ rest)) (items ++ others)

def pathsFrom : List Segment → List Item → Leaves
  | _, [] => []
  | _, .table _ path :: items | _, .tables _ path :: items =>
    (path, .other) :: pathsFrom path items
  | table, .entry _ leaves :: items =>
    leaves.map (fun leaf => (table ++ leaf.1, leaf.2)) ++ pathsFrom table items

end AtomVibe.Toml
