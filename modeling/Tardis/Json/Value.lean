import Mathlib.Data.List.Nodup

/-! `serde_json::Value` and what `serde_json::to_string` writes for it: the
compact text, with strings escaped as serde_json escapes them. A number is kept
as the text serde_json prints for it, which is all the model reads of it. -/

namespace Tardis.Json

/-- The characters a number token is made of. -/
def numberChar (c : Char) : Bool :=
  c.isDigit || c == '-' || c == '+' || c == '.' || c == 'e' || c == 'E'

def isDigits (digits : List Char) : Bool := !digits.isEmpty && digits.all Char.isDigit

/-- `([eE][+-]?[0-9]+)?` -/
def isExponent : List Char → Bool
  | [] => true
  | c :: rest =>
    (c == 'e' || c == 'E') && isDigits (match rest with | '+' :: digits | '-' :: digits => digits | digits => digits)

/-- `(\.[0-9]+)?` followed by an exponent. -/
def isFraction : List Char → Bool
  | '.' :: rest => isDigits (rest.takeWhile Char.isDigit) && isExponent (rest.dropWhile Char.isDigit)
  | rest => isExponent rest

/-- `(0|[1-9][0-9]*)` followed by a fraction. -/
def isUnsigned : List Char → Bool
  | '0' :: rest => isFraction rest
  | c :: rest => c.isDigit && isFraction (rest.dropWhile Char.isDigit)
  | [] => false

/-- The grammar of a JSON number. -/
def isNumberText : List Char → Bool
  | '-' :: rest => isUnsigned rest
  | text => isUnsigned text

/-- A number, as its text. -/
structure Number where
  text : List Char
  valid : isNumberText text = true
  deriving DecidableEq

private theorem numberChar_of_digit {c : Char} (digit : c.isDigit = true) : numberChar c = true := by
  simp [numberChar, digit]

private theorem mem_split {p : Char → Bool} {c : Char} {s : List Char} (member : c ∈ s) :
    c ∈ s.takeWhile p ∨ c ∈ s.dropWhile p := by
  rw [← List.takeWhile_append_dropWhile p s] at member
  exact List.mem_append.mp member

private theorem isDigits_chars {digits : List Char} (valid : isDigits digits = true) :
    ∀ c ∈ digits, numberChar c = true := by
  simp only [isDigits, Bool.and_eq_true, List.all_eq_true] at valid
  exact fun c member => numberChar_of_digit (valid.2 c member)

private theorem isExponent_chars {text : List Char} (valid : isExponent text = true) :
    ∀ c ∈ text, numberChar c = true := by
  cases text with
  | nil => simp
  | cons e rest =>
    simp only [isExponent, Bool.and_eq_true] at valid
    obtain ⟨marker, digits⟩ := valid
    intro c member
    rcases List.mem_cons.mp member with rfl | member
    · simp only [numberChar, Bool.or_eq_true, beq_iff_eq] at marker ⊢
      rcases marker with rfl | rfl <;> simp
    · split at digits
      all_goals first
        | (rcases List.mem_cons.mp member with rfl | member
           · rfl
           · exact isDigits_chars digits c member)
        | exact isDigits_chars digits c member

private theorem isFraction_chars {text : List Char} (valid : isFraction text = true) :
    ∀ c ∈ text, numberChar c = true := by
  unfold isFraction at valid
  split at valid
  next rest =>
    simp only [Bool.and_eq_true] at valid
    intro c member
    rcases List.mem_cons.mp member with rfl | member
    · rfl
    · rcases mem_split member with taken | dropped
      · exact numberChar_of_digit (List.mem_takeWhile_imp taken)
      · exact isExponent_chars valid.2 c dropped
  next => exact isExponent_chars valid

private theorem isUnsigned_chars {text : List Char} (valid : isUnsigned text = true) :
    ∀ c ∈ text, numberChar c = true := by
  unfold isUnsigned at valid
  split at valid
  next rest =>
    intro c member
    rcases List.mem_cons.mp member with rfl | member
    · rfl
    · exact isFraction_chars valid c member
  next d rest _ =>
    simp only [Bool.and_eq_true] at valid
    intro c member
    rcases List.mem_cons.mp member with rfl | member
    · exact numberChar_of_digit valid.1
    · rcases mem_split member with taken | dropped
      · exact numberChar_of_digit (List.mem_takeWhile_imp taken)
      · exact isFraction_chars valid.2 c dropped
  next => cases valid

theorem Number.chars (n : Number) : ∀ c ∈ n.text, numberChar c = true := by
  have valid := n.valid
  unfold isNumberText at valid
  split at valid
  next rest heq =>
    rw [heq]
    intro c member
    rcases List.mem_cons.mp member with rfl | member
    · rfl
    · exact isUnsigned_chars valid c member
  next => exact isUnsigned_chars valid

/-- The digits of `n` in front of `acc`, most significant first, as `itoa` writes
them; `fuel` bounds the digits. -/
def decimalFuel : Nat → Nat → List Char → List Char
  | 0, _, acc => acc
  | fuel + 1, n, acc =>
    if n < 10 then Nat.digitChar n :: acc else decimalFuel fuel (n / 10) (Nat.digitChar (n % 10) :: acc)

def decimal (n : Nat) : List Char := decimalFuel (n + 1) n []

private theorem digitChar_isDigit : ∀ k < 10, (Nat.digitChar k).isDigit = true := by decide

private theorem digitChar_ne_zero : ∀ k < 10, 0 < k → Nat.digitChar k ≠ '0' := by decide

/-- Enough fuel writes digits, the first of them no `0` unless the number is. -/
theorem decimalFuel_shape : ∀ (fuel n : Nat) (acc : List Char), n < fuel → (∀ c ∈ acc, c.isDigit = true) →
    ∃ d rest, decimalFuel fuel n acc = d :: rest ∧ d.isDigit = true ∧ (0 < n → d ≠ '0') ∧
      ∀ c ∈ rest, c.isDigit = true
  | 0, _, _, enough, _ => absurd enough (Nat.not_lt_zero _)
  | fuel + 1, n, acc, enough, digits => by
    unfold decimalFuel
    split
    next small => exact ⟨_, acc, rfl, digitChar_isDigit n small, digitChar_ne_zero n small, digits⟩
    next large =>
      have next : ∀ c ∈ Nat.digitChar (n % 10) :: acc, c.isDigit = true := by
        intro c member
        rcases List.mem_cons.mp member with rfl | inside
        · exact digitChar_isDigit _ (Nat.mod_lt _ (by decide))
        · exact digits c inside
      obtain ⟨d, rest, shape, digit, leading, others⟩ := decimalFuel_shape fuel (n / 10) _ (by omega) next
      exact ⟨d, rest, shape, digit, fun _ => leading (by omega), others⟩

theorem isUnsigned_decimal (n : Nat) : isUnsigned (decimal n) = true := by
  obtain ⟨d, rest, shape, digit, leading, others⟩ := decimalFuel_shape (n + 1) n [] (by omega) (fun _ h => by cases h)
  by_cases zero : n = 0
  · subst zero
    rfl
  · have run : rest.dropWhile Char.isDigit = [] := List.dropWhile_eq_nil_iff.mpr others
    rw [decimal, shape]
    simp [isUnsigned, isFraction, isExponent, leading (Nat.pos_of_ne_zero zero), digit, run]

theorem isNumberText_decimal (n : Nat) : isNumberText (decimal n) = true := by
  obtain ⟨d, rest, shape, digit, -, -⟩ := decimalFuel_shape (n + 1) n [] (by omega) (fun _ h => by cases h)
  have notMinus : d ≠ '-' := by rintro rfl; exact absurd digit (by decide)
  have unsigned := isUnsigned_decimal n
  rw [decimal, shape] at unsigned ⊢
  simpa [isNumberText, notMinus] using unsigned

/-- The number serde_json writes for an integer. -/
def Number.ofInt : Int → Number
  | .ofNat n => ⟨decimal n, isNumberText_decimal n⟩
  | .negSucc n => ⟨'-' :: decimal (n + 1), isUnsigned_decimal (n + 1)⟩

inductive Value where
  | null
  | bool (b : Bool)
  | number (n : Number)
  | string (s : String)
  | array (items : List Value)
  | object (fields : List (String × Value))

mutual
/-- Every object of the value holds each key once, as a `Map` does. -/
def Value.WF : Value → Prop
  | .array items => itemsWF items
  | .object fields => (fields.map Prod.fst).Nodup ∧ fieldsWF fields
  | _ => True

def itemsWF : List Value → Prop
  | [] => True
  | v :: vs => v.WF ∧ itemsWF vs

def fieldsWF : List (String × Value) → Prop
  | [] => True
  | (_, v) :: fields => v.WF ∧ fieldsWF fields
end

/-! ## Writing -/

def hexDigit (n : Nat) : Char := if n < 10 then Char.ofNat (48 + n) else Char.ofNat (87 + n)

/-- serde_json's `ESCAPE` table: quote and backslash, the five short escapes, and
`\u00XX` with lowercase hex for the other control characters. -/
def escapeChar (c : Char) : List Char :=
  if c = '"' then ['\\', '"'] else if c = '\\' then ['\\', '\\']
  else if c = '\x08' then ['\\', 'b'] else if c = '\x0C' then ['\\', 'f']
  else if c = '\n' then ['\\', 'n'] else if c = '\r' then ['\\', 'r'] else if c = '\t' then ['\\', 't']
  else if c.toNat < 0x20 then ['\\', 'u', '0', '0', hexDigit (c.toNat / 16), hexDigit (c.toNat % 16)]
  else [c]

def escape (s : List Char) : List Char := s.flatMap escapeChar

def writeString (s : String) : List Char := '"' :: (escape s.data ++ ['"'])

mutual
/-- `serde_json::to_string`, the compact writer. -/
def Value.write : Value → List Char
  | .null => ['n', 'u', 'l', 'l']
  | .bool true => ['t', 'r', 'u', 'e']
  | .bool false => ['f', 'a', 'l', 's', 'e']
  | .number n => n.text
  | .string s => writeString s
  | .array [] => ['[', ']']
  | .array (v :: vs) => '[' :: (v.write ++ writeItems vs)
  | .object [] => ['{', '}']
  | .object ((key, v) :: fields) => '{' :: (writeString key ++ ':' :: (v.write ++ writeFields fields))

/-- The elements after the first, and the closing bracket. -/
def writeItems : List Value → List Char
  | [] => [']']
  | v :: vs => ',' :: (v.write ++ writeItems vs)

/-- The members after the first, and the closing brace. -/
def writeFields : List (String × Value) → List Char
  | [] => ['}']
  | (key, v) :: fields => ',' :: (writeString key ++ ':' :: (v.write ++ writeFields fields))
end

/-! ## Escaping -/

/-- A character serde_json writes as it is. -/
def Plain (c : Char) : Prop := c ≠ '"' ∧ c ≠ '\\' ∧ 0x20 ≤ c.toNat

instance : DecidablePred Plain := fun c => inferInstanceAs (Decidable (c ≠ '"' ∧ c ≠ '\\' ∧ 0x20 ≤ c.toNat))

theorem escapeChar_plain {c : Char} (plain : Plain c) : escapeChar c = [c] := by
  obtain ⟨quote, backslash, printable⟩ := plain
  have control : ¬ c.toNat < 0x20 := Nat.not_lt.mpr printable
  have short : c ≠ '\x08' ∧ c ≠ '\x0C' ∧ c ≠ '\n' ∧ c ≠ '\r' ∧ c ≠ '\t' := by
    refine ⟨?_, ?_, ?_, ?_, ?_⟩ <;> (rintro rfl; exact control (by decide))
  simp [escapeChar, quote, backslash, short, control]

@[simp] theorem escape_nil : escape [] = [] := rfl

@[simp] theorem escape_cons (c : Char) (s : List Char) : escape (c :: s) = escapeChar c ++ escape s := rfl

theorem escape_append (s t : List Char) : escape (s ++ t) = escape s ++ escape t := by
  simp [escape]

theorem escape_of_plain {s : List Char} (plain : ∀ c ∈ s, Plain c) : escape s = s := by
  induction s with
  | nil => rfl
  | cons c rest ih =>
    rw [escape_cons, escapeChar_plain (plain c (List.mem_cons_self c rest)),
      ih fun d member => plain d (List.mem_cons_of_mem c member)]
    rfl

/-! ## Indexing -/

/-- `value[key]` of serde_json: the member at the key of an object, `null` where
there is none. -/
def Value.index (v : Value) (key : String) : Value :=
  match v with
  | .object fields => (fields.lookup key).getD .null
  | _ => .null

theorem fieldsWF_lookup : ∀ {fields : List (String × Value)}, fieldsWF fields → ∀ {key : String} {v : Value},
    fields.lookup key = some v → v.WF
  | [], _, _, _, found => by cases found
  | (k, w) :: rest, wf, key, v, found => by
    by_cases same : key = k
    · simp only [List.lookup_cons, same, beq_self_eq_true, Option.some.injEq] at found
      exact found ▸ wf.1
    · simp only [List.lookup_cons, beq_false_of_ne same] at found
      exact fieldsWF_lookup wf.2 found

theorem fieldsWF_iff : ∀ {fields : List (String × Value)}, fieldsWF fields ↔ ∀ field ∈ fields, field.2.WF
  | [] => by simp [fieldsWF]
  | (_, _) :: _ => by simp [fieldsWF, fieldsWF_iff]

theorem Value.WF_object {fields : List (String × Value)} :
    (Value.object fields).WF ↔ (fields.map Prod.fst).Nodup ∧ ∀ field ∈ fields, field.2.WF := by
  rw [Value.WF, fieldsWF_iff]

theorem Value.index_WF {v : Value} (wf : v.WF) (key : String) : (v.index key).WF := by
  cases v with
  | object fields =>
    cases found : fields.lookup key with
    | none => simp only [Value.index, found, Option.getD_none, Value.WF]
    | some w => simpa only [Value.index, found, Option.getD_some] using fieldsWF_lookup wf.2 found
  | _ => simp only [Value.index, Value.WF]

theorem itemsWF_mem : ∀ {vs : List Value}, itemsWF vs → ∀ {v : Value}, v ∈ vs → v.WF
  | [], _, _, member => by cases member
  | _ :: _, wf, _, .head _ => wf.1
  | _ :: _, wf, _, .tail _ member => itemsWF_mem wf.2 member

end Tardis.Json
