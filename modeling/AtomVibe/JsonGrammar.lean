import AtomVibe.Json

/-!
The grammar of JSON texts as RFC 8259 has it, with the values they denote. The characters a string
may hold without an escape are a parameter; a string with an unpaired surrogate denotes nothing.
-/

namespace AtomVibe.JsonGrammar

open Text Json Json.Parser

def isBlankChar (c : Char) : Bool := c == ' ' || c == '\t' || c == '\n' || c == '\r'

def Blanks (cs : List Char) : Prop := ∀ c ∈ cs, isBlankChar c = true

theorem blanks_nil : Blanks [] := by
  simp [Blanks]

structure Digits (cs : List Char) : Prop where
  nonempty : cs ≠ []
  digits : ∀ c ∈ cs, isAsciiDigit c = true

inductive IntText : List Char → Prop
  | zero : IntText ['0']
  | digits {c : Char} {cs : List Char} (first : isAsciiDigit c = true ∧ c ≠ '0')
      (rest : ∀ d ∈ cs, isAsciiDigit d = true) : IntText (c :: cs)

inductive FractionText : List Char → Prop
  | none : FractionText []
  | some {cs : List Char} (digits : Digits cs) : FractionText ('.' :: cs)

inductive ExponentText : List Char → Prop
  | none : ExponentText []
  | some {e : Char} {sign cs : List Char} (letter : e = 'e' ∨ e = 'E')
      (signed : sign = [] ∨ sign = ['+'] ∨ sign = ['-']) (digits : Digits cs) :
      ExponentText (e :: (sign ++ cs))

inductive NumberText : List Char → Prop
  | mk {minus int fraction exponent : List Char} (sign : minus = [] ∨ minus = ['-'])
      (integer : IntText int) (frac : FractionText fraction) (exp : ExponentText exponent) :
      NumberText (minus ++ (int ++ (fraction ++ exponent)))

def escapes : List (Char × Char) :=
  [('"', '"'), ('\\', '\\'), ('/', '/'), ('b', '\x08'), ('f', '\x0c'), ('n', '\n'), ('r', '\r'),
    ('t', '\t')]

inductive HexText : List Char → ℕ → Prop
  | mk {a b c d : Char} {w x y z : ℕ} (first : toDigit16 a = some w) (second : toDigit16 b = some x)
      (third : toDigit16 c = some y) (fourth : toDigit16 d = some z) :
      HexText [a, b, c, d] (((w * 16 + x) * 16 + y) * 16 + z)

def isHighSurrogate (n : ℕ) : Prop := 0xd800 ≤ n ∧ n ≤ 0xdbff

def isLowSurrogate (n : ℕ) : Prop := 0xdc00 ≤ n ∧ n ≤ 0xdfff

def unescaped (c : Char) : Bool := 0x20 ≤ c.toNat && c != '"' && c != '\\'

section Texts

variable (plain : Char → Bool)

inductive CharText : List Char → Char → Prop
  | plain {c : Char} (allowed : plain c = true) : CharText [c] c
  | escape {letter c : Char} (known : (letter, c) ∈ escapes) : CharText ['\\', letter] c
  | unit {digits : List Char} {n : ℕ} (hex : HexText digits n)
      (scalar : ¬isHighSurrogate n ∧ ¬isLowSurrogate n) :
      CharText ('\\' :: 'u' :: digits) (Char.ofNat n)
  | pair {digits digits' : List Char} {high low : ℕ} (hex : HexText digits high)
      (hex' : HexText digits' low) (first : isHighSurrogate high) (second : isLowSurrogate low) :
      CharText ('\\' :: 'u' :: (digits ++ '\\' :: 'u' :: digits'))
        (Char.ofNat (0x10000 + (high - 0xd800) * 0x400 + (low - 0xdc00)))

inductive CharsText : List Char → List Char → Prop
  | nil : CharsText [] []
  | cons {cs rest out : List Char} {c : Char} (head : CharText plain cs c)
      (tail : CharsText rest out) : CharsText (cs ++ rest) (c :: out)

inductive StringText : List Char → String → Prop
  | mk {cs out : List Char} (chars : CharsText plain cs out) :
      StringText ('"' :: (cs ++ ['"'])) (String.ofList out)

variable (value : List Char → JsonValue → Prop)

inductive Elements : List Char → List JsonValue → Prop
  | one {before cs after : List Char} {v : JsonValue} (left : Blanks before) (item : value cs v)
      (right : Blanks after) : Elements (before ++ (cs ++ after)) [v]
  | more {before cs after rest : List Char} {v : JsonValue} {vs : List JsonValue}
      (left : Blanks before) (item : value cs v) (right : Blanks after)
      (others : Elements rest vs) : Elements (before ++ (cs ++ (after ++ ',' :: rest))) (v :: vs)

inductive Member : List Char → String × JsonValue → Prop
  | mk {before key colon gap cs after : List Char} {k : String} {v : JsonValue}
      (left : Blanks before) (name : StringText plain key k) (middle : Blanks colon)
      (space : Blanks gap) (item : value cs v) (right : Blanks after) :
      Member (before ++ (key ++ (colon ++ ':' :: (gap ++ (cs ++ after))))) (k, v)

inductive Members : List Char → List (String × JsonValue) → Prop
  | one {cs : List Char} {f : String × JsonValue} (member : Member plain value cs f) :
      Members cs [f]
  | more {cs rest : List Char} {f : String × JsonValue} {fs : List (String × JsonValue)}
      (member : Member plain value cs f) (others : Members rest fs) :
      Members (cs ++ ',' :: rest) (f :: fs)

inductive NodeText : List Char → JsonValue → Prop
  | null : NodeText "null".toList .null
  | true : NodeText "true".toList (.bool .true)
  | false : NodeText "false".toList (.bool .false)
  | number {cs : List Char} (number : NumberText cs) : NodeText cs (.number (String.ofList cs))
  | string {cs : List Char} {s : String} (string : StringText plain cs s) : NodeText cs (.string s)
  | emptyArray {gap : List Char} (blank : Blanks gap) : NodeText ('[' :: (gap ++ [']'])) (.array [])
  | array {cs : List Char} {vs : List JsonValue} (elements : Elements value cs vs) :
      NodeText ('[' :: (cs ++ [']'])) (.array vs)
  | emptyObject {gap : List Char} (blank : Blanks gap) :
      NodeText ('\x7b' :: (gap ++ ['\x7d'])) (.object [])
  | object {cs : List Char} {fs : List (String × JsonValue)} (members : Members plain value cs fs)
      (distinct : (fs.map Prod.fst).Nodup) : NodeText ('\x7b' :: (cs ++ ['\x7d'])) (.object fs)

end Texts

def ValueText (plain : Char → Bool) : ℕ → List Char → JsonValue → Prop
  | 0, _, _ => False
  | levels + 1, cs, v => NodeText plain (ValueText plain levels) cs v

inductive JsonText (plain : Char → Bool) (levels : ℕ) : List Char → JsonValue → Prop
  | mk {before cs after : List Char} {v : JsonValue} (left : Blanks before)
      (value : ValueText plain levels cs v) (right : Blanks after) :
      JsonText plain levels (before ++ (cs ++ after)) v

end AtomVibe.JsonGrammar
