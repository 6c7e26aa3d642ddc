import Mathlib.Algebra.Order.Ring.Nat
import Mathlib.Algebra.Order.Ring.Rat

/-!
# Host values

The JavaScript values a program receives from outside, as far as a check can
tell them apart. A finite number is the rational it denotes; a value read from a
missing property is `undefined`. Functions, symbols and big integers are one
constructor, for programs that accept none of them.
-/
namespace LetAgents.Lib.Js

inductive JsNumber where
  | finite (value : Rat)
  | notFinite

inductive JsValue where
  | undefined
  | null
  | boolean (value : Bool)
  | number (value : JsNumber)
  | string (value : String)
  | object (properties : List (String × JsValue))
  | array (elements : List JsValue)
  | other

/-- `value[key]`. -/
def JsValue.property (value : JsValue) (key : String) : JsValue :=
  match value with
  | .object properties => (properties.lookup key).getD .undefined
  | _ => .undefined

/-- `{ ...value, [key]: entry }`. -/
def JsValue.assign (value : JsValue) (key : String) (entry : JsValue) : JsValue :=
  match value with
  | .object properties => .object ((key, entry) :: properties.filter fun p => p.1 != key)
  | _ => .object [(key, entry)]

theorem JsValue.property_assign_self (value : JsValue) (key : String) (entry : JsValue) :
    (value.assign key entry).property key = entry := by
  cases value <;> simp [JsValue.assign, JsValue.property]

/-- Removing an entry hides no other. -/
theorem lookup_filter_ne (different : other ≠ key) (properties : List (String × JsValue)) :
    (properties.filter fun p => p.1 != key).lookup other = properties.lookup other := by
  induction properties with
  | nil => rfl
  | cons head tail ih =>
    obtain ⟨name, entry⟩ := head
    by_cases here : name = key
    · have elsewhere : (other == name) = false := beq_false_of_ne (here ▸ different)
      rw [List.filter_cons_of_neg (by simp [here]), ih, List.lookup_cons, elsewhere]
    · rw [List.filter_cons_of_pos (by simpa using here), List.lookup_cons, List.lookup_cons, ih]

theorem JsValue.property_assign_ne {key other : String} (different : other ≠ key) (value entry : JsValue) :
    (value.assign key entry).property other = value.property other := by
  have elsewhere : (other == key) = false := beq_false_of_ne different
  cases value with
  | object properties =>
    simp only [JsValue.assign, JsValue.property, List.lookup_cons, elsewhere,
      lookup_filter_ne different]
  | _ => simp only [JsValue.assign, JsValue.property, List.lookup_cons, elsewhere,
      List.lookup_nil, Option.getD_none]

/-- The text of a string value. -/
def JsValue.text? : JsValue → Option String
  | .string value => some value
  | _ => none

/-- The value as a condition: `!!value`. -/
def JsValue.truthy : JsValue → Bool
  | .undefined | .null => false
  | .boolean value => value
  | .number (.finite value) => value ≠ 0
  | .number .notFinite => true
  | .string value => value ≠ ""
  | .object _ | .array _ | .other => true

/-- `Number.MAX_SAFE_INTEGER`. -/
def maxSafeInteger : Nat := 2 ^ 53 - 1

/-- `Math.round`: the nearest integer, halves towards positive infinity. -/
def mathRound (value : Rat) : Int := (value + 1 / 2).floor

/-- Rounding to the nearest integer, ties to even. -/
def roundHalfEven (value : Rat) : Int :=
  let below := value.floor
  let rest := value - below
  if rest < 1 / 2 then below
  else if 1 / 2 < rest then below + 1
  else if below % 2 = 0 then below
  else below + 1

/-- The exponent `e` with `2 ^ e ≤ value < 2 ^ (e + 1)`, for a positive value. -/
def binaryExponent (value : Rat) : Int :=
  let estimate : Int := (value.num.toNat.log2 : Int) - (value.den.log2 : Int)
  if (2 : Rat) ^ estimate ≤ value then estimate else estimate - 1

/-- The finite double nearest to a rational: what `+`, `-` and `*` return for the
exact result. Results past the largest double are left unrounded. -/
def double (value : Rat) : Rat :=
  if value = 0 then 0
  else
    let magnitude := if value < 0 then -value else value
    let unit : Rat := 2 ^ (max (binaryExponent magnitude) (-1022) - 52)
    roundHalfEven (value / unit) * unit

/-- The characters `String.prototype.trim` removes. -/
def isWhitespace (c : Char) : Bool :=
  [0x09, 0x0A, 0x0B, 0x0C, 0x0D, 0x20, 0xA0, 0x1680, 0x2028, 0x2029, 0x202F, 0x205F, 0x3000,
    0xFEFF].contains c.toNat || (0x2000 ≤ c.toNat && c.toNat ≤ 0x200A)

/-- `!text.trim()`: nothing is left. -/
def isBlank (text : String) : Bool := text.toList.all isWhitespace

/-- `text.trim()`. -/
def trim (text : String) : String :=
  String.ofList ((text.toList.dropWhile isWhitespace).reverse.dropWhile isWhitespace).reverse

/-- `!!text`, for a text that may be `null`: neither `null` nor empty. -/
def present (text : Option String) : Bool := text.any fun value => value ≠ ""

/-- A control character in a JSON string. -/
def escapeControl (c : Char) : String :=
  match c.toNat with
  | 0x08 => "\\b"
  | 0x09 => "\\t"
  | 0x0A => "\\n"
  | 0x0C => "\\f"
  | 0x0D => "\\r"
  | code => "\\u00" ++ String.ofList [Nat.digitChar (code / 16), Nat.digitChar (code % 16)]

/-- `JSON.stringify` of a text. -/
def quote (text : String) : String :=
  "\"" ++ String.join (text.toList.map fun c =>
    if c = '"' then "\\\"" else if c = '\\' then "\\\\"
    else if c.toNat < 0x20 then escapeControl c else String.singleton c) ++ "\""

/-- Days from 1970-01-01 to a date of the Gregorian calendar. -/
def daysFromCivil (year month day : Int) : Int :=
  let y := if month ≤ 2 then year - 1 else year
  let era := y / 400
  let yearOfEra := y - era * 400
  let dayOfYear := (153 * (if month > 2 then month - 3 else month + 9) + 2) / 5 + day - 1
  era * 146097 + yearOfEra * 365 + yearOfEra / 4 - yearOfEra / 100 + dayOfYear - 719468

/-- The number a nonempty text of decimal digits denotes. -/
def decimal (digits : List Char) : Option Nat :=
  if !digits.isEmpty && digits.all Char.isDigit then
    some (digits.foldl (fun value c => value * 10 + (c.toNat - '0'.toNat)) 0)
  else none

/-- `Date.parse` of what `toISOString` writes, `YYYY-MM-DDTHH:mm:ss.sssZ`. Other
texts are not dates here. -/
def dateParse (text : String) : Option Int :=
  match text.toList with
  | [y1, y2, y3, y4, '-', m1, m2, '-', d1, d2, 'T', h1, h2, ':', n1, n2, ':', s1, s2, '.', u1, u2,
      u3, 'Z'] => do
      let year ← decimal [y1, y2, y3, y4]
      let month ← decimal [m1, m2]
      let day ← decimal [d1, d2]
      let hour ← decimal [h1, h2]
      let minute ← decimal [n1, n2]
      let second ← decimal [s1, s2]
      let milli ← decimal [u1, u2, u3]
      if 1 ≤ month ∧ month ≤ 12 ∧ 1 ≤ day ∧ day ≤ 31 ∧ hour ≤ 23 ∧ minute ≤ 59 ∧ second ≤ 59 then
        some ((((daysFromCivil year month day * 24 + hour) * 60 + minute) * 60 + second) * 1000 +
          milli)
      else none
  | _ => none

end LetAgents.Lib.Js
