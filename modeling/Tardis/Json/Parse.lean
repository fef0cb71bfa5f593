import Tardis.Json.Value

/-! `serde_json::from_str`: whitespace, literals, numbers, strings with their
escapes, arrays and objects, an object keeping one entry per key as a `Map` does.
The parser reads back what the writer writes, for every well-formed value. -/

namespace Tardis.Json

def isWs (c : Char) : Bool := c == ' ' || c == '\n' || c == '\t' || c == '\r'

def skipWs (text : List Char) : List Char := text.dropWhile isWs

def hexValue (c : Char) : Option Nat :=
  if c.isDigit then some (c.toNat - 48)
  else if 'a' ≤ c ∧ c ≤ 'f' then some (c.toNat - 87)
  else if 'A' ≤ c ∧ c ≤ 'F' then some (c.toNat - 55)
  else none

def hex4 (a b c d : Char) : Option Nat := do
  let a ← hexValue a
  let b ← hexValue b
  let c ← hexValue c
  let d ← hexValue d
  pure (((a * 16 + b) * 16 + c) * 16 + d)

/-- A decoded character in front of the string read so far. -/
def prepend (c : Char) (read : List Char × List Char) : List Char × List Char := (c :: read.1, read.2)

/-- The escapes of one character after a backslash. -/
def shortEscape (c : Char) : Option Char :=
  if c = '"' then some '"' else if c = '\\' then some '\\' else if c = '/' then some '/'
  else if c = 'b' then some '\x08' else if c = 'f' then some '\x0C' else if c = 'n' then some '\n'
  else if c = 'r' then some '\r' else if c = 't' then some '\t' else none

def highSurrogate (n : Nat) : Bool := 0xD800 ≤ n && n < 0xDC00

def lowSurrogate (n : Nat) : Bool := 0xDC00 ≤ n && n < 0xE000

/-- The character of a `\uXXXX` escape after its `u`, with the text after it: a
high surrogate must be followed by the escape of a low one. -/
def decodeUnicode : List Char → Except String (Char × List Char)
  | a :: b :: c :: d :: rest =>
    match hex4 a b c d with
    | none => .error "invalid escape"
    | some n =>
      if lowSurrogate n then .error "lone leading surrogate in hex escape"
      else if highSurrogate n then
        match rest with
        | slash :: u :: e :: f :: g :: h :: after =>
          if slash = '\\' ∧ u = 'u' then
            match hex4 e f g h with
            | some m =>
              if lowSurrogate m then .ok (Char.ofNat (0x10000 + (n - 0xD800) * 0x400 + (m - 0xDC00)), after)
              else .error "lone leading surrogate in hex escape"
            | none => .error "invalid escape"
          else .error "unexpected end of hex escape"
        | _ => .error "unexpected end of hex escape"
      else .ok (Char.ofNat n, rest)
  | _ => .error "EOF while parsing a string"

/-- The body of a string literal after its opening quote: the decoded characters
and the text after the closing quote. `fuel` bounds the characters read. -/
def parseStringFuel : Nat → List Char → Except String (List Char × List Char)
  | 0, _ => .error "EOF while parsing a string"
  | _ + 1, [] => .error "EOF while parsing a string"
  | fuel + 1, c :: rest =>
    if c = '"' then .ok ([], rest)
    else if c = '\\' then
      match rest with
      | [] => .error "EOF while parsing a string"
      | e :: rest =>
        match shortEscape e with
        | some decoded => prepend decoded <$> parseStringFuel fuel rest
        | none =>
          if e = 'u' then do
            let (decoded, rest) ← decodeUnicode rest
            prepend decoded <$> parseStringFuel fuel rest
          else .error "invalid escape"
    else if c.toNat < 0x20 then .error "control character found while parsing a string"
    else prepend c <$> parseStringFuel fuel rest

def parseString (text : List Char) : Except String (List Char × List Char) :=
  parseStringFuel text.length text

/-- The longest run of number characters, checked against the grammar. -/
def parseNumber (text : List Char) : Except String (Value × List Char) :=
  let run := text.takeWhile numberChar
  if run.isEmpty then .error "expected value"
  else if valid : isNumberText run = true then .ok (.number ⟨run, valid⟩, text.dropWhile numberChar)
  else .error "invalid number"

/-- `Map::insert`: a key already present keeps its place and takes the new value. -/
def insertField {β : Type} : List (String × β) → String → β → List (String × β)
  | [], key, v => [(key, v)]
  | (k, w) :: rest, key, v => if k = key then (key, v) :: rest else (k, w) :: insertField rest key v

/-- The map the members of an object text build, in order. -/
def collectFields (pairs : List (String × Value)) : List (String × Value) :=
  pairs.foldl (fun fields pair => insertField fields pair.1 pair.2) []

def expectColon (text : List Char) : Except String (List Char) :=
  match skipWs text with
  | c :: rest => if c = ':' then .ok rest else .error "expected colon"
  | [] => .error "EOF while parsing an object"

/-- The rest of `null`, `true` or `false` after its first letter. -/
def parseIdent (expected : List Char) (v : Value) (text : List Char) : Except String (Value × List Char) :=
  if text.take expected.length = expected then .ok (v, text.drop expected.length) else .error "expected ident"

mutual
/-- One value after optional whitespace. `fuel` bounds the nesting and the length
of the arrays and objects on the way down. -/
def parseValue : Nat → List Char → Except String (Value × List Char)
  | 0, _ => .error "recursion limit exceeded"
  | fuel + 1, text =>
    match skipWs text with
    | [] => .error "EOF while parsing a value"
    | c :: rest =>
      if c = 'n' then parseIdent ['u', 'l', 'l'] .null rest
      else if c = 't' then parseIdent ['r', 'u', 'e'] (.bool true) rest
      else if c = 'f' then parseIdent ['a', 'l', 's', 'e'] (.bool false) rest
      else if c = '"' then (fun read => (.string (String.mk read.1), read.2)) <$> parseString rest
      else if c = '[' then
        if (skipWs rest).head? = some ']' then .ok (.array [], (skipWs rest).tail)
        else do
          let (v, rest) ← parseValue fuel rest
          let (vs, rest) ← parseItems fuel rest
          pure (.array (v :: vs), rest)
      else if c = '\x7b' then
        match skipWs rest with
        | [] => .error "EOF while parsing an object"
        | d :: rest =>
          if d = '\x7d' then .ok (.object [], rest)
          else if d = '"' then do
            let (key, rest) ← parseString rest
            let rest ← expectColon rest
            let (v, rest) ← parseValue fuel rest
            let (fields, rest) ← parseFields fuel rest
            pure (.object (collectFields ((String.mk key, v) :: fields)), rest)
          else .error "key must be a string"
      else parseNumber (c :: rest)

/-- The elements of an array after its first one, and its closing bracket. -/
def parseItems : Nat → List Char → Except String (List Value × List Char)
  | 0, _ => .error "recursion limit exceeded"
  | fuel + 1, text =>
    match skipWs text with
    | [] => .error "EOF while parsing a list"
    | c :: rest =>
      if c = ',' then do
        let (v, rest) ← parseValue fuel rest
        let (vs, rest) ← parseItems fuel rest
        pure (v :: vs, rest)
      else if c = ']' then .ok ([], rest)
      else .error "expected comma or ]"

/-- The members of an object after its first one, and its closing brace. -/
def parseFields : Nat → List Char → Except String (List (String × Value) × List Char)
  | 0, _ => .error "recursion limit exceeded"
  | fuel + 1, text =>
    match skipWs text with
    | [] => .error "EOF while parsing an object"
    | c :: rest =>
      if c = ',' then
        match skipWs rest with
        | [] => .error "EOF while parsing an object"
        | d :: rest =>
          if d = '"' then do
            let (key, rest) ← parseString rest
            let rest ← expectColon rest
            let (v, rest) ← parseValue fuel rest
            let (fields, rest) ← parseFields fuel rest
            pure ((String.mk key, v) :: fields, rest)
          else .error "key must be a string"
      else if c = '\x7d' then .ok ([], rest)
      else .error "expected comma or \x7d"
end

/-- `serde_json::from_str`: one value and nothing after it but whitespace. -/
def fromStr (text : List Char) : Except String Value := do
  let (v, rest) ← parseValue (text.length + 1) text
  match skipWs rest with
  | [] => pure v
  | _ => .error "trailing characters"

/-- `from_str` into a `HashMap<String, Value>`: the text must hold an object. -/
def fromStrMap (text : List Char) : Except String (List (String × Value)) := do
  match ← fromStr text with
  | .object fields => pure fields
  | _ => .error "invalid type, expected a map"

/-! ## Reading back what is written -/

/-- What may follow a value: not a character that would extend a number. -/
def Delimited (rest : List Char) : Prop := ∀ c ∈ rest.head?, numberChar c = false

mutual
/-- The fuel `parseValue` needs for the value: its nesting, with each element of a
list counted on the way down. -/
def Value.depth : Value → Nat
  | .array items => itemsDepth items
  | .object fields => fieldsDepth fields
  | _ => 1

def itemsDepth : List Value → Nat
  | [] => 1
  | v :: vs => max v.depth (itemsDepth vs) + 1

def fieldsDepth : List (String × Value) → Nat
  | [] => 1
  | (_, v) :: fields => max v.depth (fieldsDepth fields) + 1
end

theorem skipWs_cons {c : Char} (notWs : isWs c = false) (rest : List Char) :
    skipWs (c :: rest) = c :: rest := by
  simp [skipWs, notWs]

theorem hexValue_hexDigit : ∀ k < 16, hexValue (hexDigit k) = some k := by decide

theorem decodeUnicode_control {c : Char} (control : c.toNat < 0x20) (tail : List Char) :
    decodeUnicode ('0' :: '0' :: hexDigit (c.toNat / 16) :: hexDigit (c.toNat % 16) :: tail) = .ok (c, tail) := by
  have digits : hex4 '0' '0' (hexDigit (c.toNat / 16)) (hexDigit (c.toNat % 16)) = some c.toNat := by
    simp only [hex4, hexValue_hexDigit (c.toNat / 16) (by omega), hexValue_hexDigit (c.toNat % 16) (by omega),
      show hexValue '0' = some 0 from rfl, Option.bind_eq_bind, Option.some_bind]
    congr 1
    omega
  have notLow : lowSurrogate c.toNat = false := by simp [lowSurrogate]; omega
  have notHigh : highSurrogate c.toNat = false := by simp [highSurrogate]; omega
  simp only [decodeUnicode, digits, notLow, notHigh, Char.ofNat_toNat]
  rfl

theorem parseStringFuel_plain {c : Char} (plain : Plain c) (fuel : Nat) (tail : List Char) :
    parseStringFuel (fuel + 1) (c :: tail) = prepend c <$> parseStringFuel fuel tail := by
  obtain ⟨quote, backslash, printable⟩ := plain
  simp only [parseStringFuel, if_neg quote, if_neg backslash, if_neg (Nat.not_lt.mpr printable)]

theorem parseStringFuel_short {e decoded : Char} (short : shortEscape e = some decoded) (fuel : Nat)
    (tail : List Char) :
    parseStringFuel (fuel + 1) ('\\' :: e :: tail) = prepend decoded <$> parseStringFuel fuel tail := by
  simp only [parseStringFuel, if_neg (show '\\' ≠ '"' by decide), if_true, short]

theorem parseStringFuel_unicode {rest after : List Char} {decoded : Char}
    (decodes : decodeUnicode rest = .ok (decoded, after)) (fuel : Nat) :
    parseStringFuel (fuel + 1) ('\\' :: 'u' :: rest) = prepend decoded <$> parseStringFuel fuel after := by
  simp only [parseStringFuel, if_neg (show '\\' ≠ '"' by decide), if_true,
    show shortEscape 'u' = none by decide, decodes]
  rfl

/-- What `escapeChar` can write: a short escape, a `\u00XX` escape of a control
character, or the character itself. -/
theorem escapeChar_cases (c : Char) :
    (∃ e, shortEscape e = some c ∧ escapeChar c = ['\\', e]) ∨
    (c.toNat < 0x20 ∧ escapeChar c = ['\\', 'u', '0', '0', hexDigit (c.toNat / 16), hexDigit (c.toNat % 16)]) ∨
    (Plain c ∧ escapeChar c = [c]) := by
  by_cases quote : c = '"'
  · exact .inl ⟨'"', by rw [quote]; rfl, by rw [quote]; rfl⟩
  by_cases backslash : c = '\\'
  · exact .inl ⟨'\\', by rw [backslash]; rfl, by rw [backslash]; rfl⟩
  by_cases backspace : c = '\x08'
  · exact .inl ⟨'b', by rw [backspace]; rfl, by rw [backspace]; rfl⟩
  by_cases formfeed : c = '\x0C'
  · exact .inl ⟨'f', by rw [formfeed]; rfl, by rw [formfeed]; rfl⟩
  by_cases newline : c = '\n'
  · exact .inl ⟨'n', by rw [newline]; rfl, by rw [newline]; rfl⟩
  by_cases carriage : c = '\r'
  · exact .inl ⟨'r', by rw [carriage]; rfl, by rw [carriage]; rfl⟩
  by_cases tab : c = '\t'
  · exact .inl ⟨'t', by rw [tab]; rfl, by rw [tab]; rfl⟩
  have other : escapeChar c =
      if c.toNat < 0x20 then ['\\', 'u', '0', '0', hexDigit (c.toNat / 16), hexDigit (c.toNat % 16)] else [c] := by
    simp only [escapeChar, if_neg quote, if_neg backslash, if_neg backspace, if_neg formfeed, if_neg newline,
      if_neg carriage, if_neg tab]
  by_cases control : c.toNat < 0x20
  · exact .inr (.inl ⟨control, by rw [other, if_pos control]⟩)
  · exact .inr (.inr ⟨⟨quote, backslash, Nat.le_of_not_lt control⟩, by rw [other, if_neg control]⟩)

/-- Each escape the writer emits is read back as its character, for one unit of fuel. -/
theorem parseStringFuel_escapeChar (c : Char) (fuel : Nat) (tail : List Char) :
    parseStringFuel (fuel + 1) (escapeChar c ++ tail) = prepend c <$> parseStringFuel fuel tail := by
  rcases escapeChar_cases c with ⟨e, short, shape⟩ | ⟨control, shape⟩ | ⟨plain, shape⟩ <;> rw [shape]
  · exact parseStringFuel_short short fuel tail
  · exact parseStringFuel_unicode (decodeUnicode_control control tail) fuel
  · exact parseStringFuel_plain plain fuel tail

theorem parseStringFuel_escape (s tail : List Char) {fuel : Nat} (enough : s.length < fuel) :
    parseStringFuel fuel (escape s ++ '"' :: tail) = .ok (s, tail) := by
  induction s generalizing fuel with
  | nil =>
    obtain ⟨fuel, rfl⟩ : ∃ n, fuel = n + 1 := ⟨fuel - 1, by simp at enough; omega⟩
    simp [parseStringFuel]
  | cons c rest ih =>
    obtain ⟨fuel, rfl⟩ : ∃ n, fuel = n + 1 := ⟨fuel - 1, by simp at enough; omega⟩
    rw [escape_cons, List.append_assoc, parseStringFuel_escapeChar,
      ih (by simp only [List.length_cons] at enough; omega)]
    rfl

theorem length_le_escape (s : List Char) : s.length ≤ (escape s).length := by
  induction s with
  | nil => rfl
  | cons c rest ih =>
    have : 1 ≤ (escapeChar c).length := by
      rcases escapeChar_cases c with ⟨_, _, shape⟩ | ⟨_, shape⟩ | ⟨_, shape⟩ <;> simp [shape]
    simp only [escape_cons, List.length_append, List.length_cons]
    omega

theorem parseString_escape (s tail : List Char) : parseString (escape s ++ '"' :: tail) = .ok (s, tail) :=
  parseStringFuel_escape s tail (by simp only [List.length_append, List.length_cons]; have := length_le_escape s; omega)

theorem Number.text_cons (n : Number) : ∃ c rest, n.text = c :: rest := by
  cases shape : n.text with
  | nil => exact absurd (shape ▸ n.valid) (by decide)
  | cons c rest => exact ⟨c, rest, rfl⟩

theorem parseNumber_text (n : Number) {rest : List Char} (delimited : Delimited rest) :
    parseNumber (n.text ++ rest) = .ok (.number n, rest) := by
  have stop : rest.takeWhile numberChar = [] ∧ rest.dropWhile numberChar = rest := by
    cases rest with
    | nil => simp
    | cons c tail => simp [delimited c rfl]
  have run : (n.text ++ rest).takeWhile numberChar = n.text := by
    rw [List.takeWhile_append_of_pos n.chars, stop.1, List.append_nil]
  have after : (n.text ++ rest).dropWhile numberChar = rest := by
    rw [List.dropWhile_append_of_pos n.chars, stop.2]
  have nonempty : n.text.isEmpty = false := by
    obtain ⟨c, tail, shape⟩ := n.text_cons
    simp [shape]
  unfold parseNumber
  simp only [run, after, nonempty, Bool.false_eq_true, if_false, dif_pos n.valid]

theorem isWs_of_numberChar {c : Char} (number : numberChar c = true) : isWs c = false := by
  cases ws : isWs c
  · rfl
  · simp only [isWs, Bool.or_eq_true, beq_iff_eq] at ws
    rcases ws with ((rfl | rfl) | rfl) | rfl <;> exact absurd number (by decide)

/-- A number never starts like another value, or like the end of a list. -/
theorem numberChar_ne {c : Char} (number : numberChar c = true) :
    c ≠ 'n' ∧ c ≠ 't' ∧ c ≠ 'f' ∧ c ≠ '"' ∧ c ≠ '[' ∧ c ≠ '\x7b' ∧ c ≠ ']' := by
  refine ⟨?_, ?_, ?_, ?_, ?_, ?_, ?_⟩ <;> (rintro rfl; exact absurd number (by decide))

theorem write_head (v : Value) : ∃ c rest, v.write = c :: rest ∧ isWs c = false ∧ c ≠ ']' := by
  cases v with
  | number n =>
    obtain ⟨c, rest, shape⟩ := n.text_cons
    have number := n.chars c (shape ▸ List.mem_cons_self c rest)
    exact ⟨c, rest, shape, isWs_of_numberChar number, (numberChar_ne number).2.2.2.2.2.2⟩
  | bool b => cases b <;> exact ⟨_, _, rfl, rfl, by decide⟩
  | array items => cases items <;> exact ⟨_, _, rfl, rfl, by decide⟩
  | object fields => rcases fields with _ | ⟨⟨_, _⟩, _⟩ <;> exact ⟨_, _, rfl, rfl, by decide⟩
  | null | string _ => exact ⟨_, _, rfl, rfl, by decide⟩

theorem writeItems_delimited (vs : List Value) (rest : List Char) : Delimited (writeItems vs ++ rest) := by
  cases vs <;> (intro c member; cases member; rfl)

theorem writeFields_delimited (fields : List (String × Value)) (rest : List Char) :
    Delimited (writeFields fields ++ rest) := by
  rcases fields with _ | ⟨⟨_, _⟩, _⟩ <;> (intro c member; cases member; rfl)

mutual
theorem Value.depth_pos : (v : Value) → 0 < v.depth
  | .array items => itemsDepth_pos items
  | .object fields => fieldsDepth_pos fields
  | .null | .bool _ | .number _ | .string _ => Nat.one_pos

theorem itemsDepth_pos : (vs : List Value) → 0 < itemsDepth vs
  | [] => Nat.one_pos
  | _ :: _ => Nat.succ_pos _

theorem fieldsDepth_pos : (fields : List (String × Value)) → 0 < fieldsDepth fields
  | [] => Nat.one_pos
  | _ :: _ => Nat.succ_pos _
end

theorem insertField_fresh {β : Type} {fields : List (String × β)} {key : String}
    (fresh : key ∉ fields.map Prod.fst) (v : β) : insertField fields key v = fields ++ [(key, v)] := by
  induction fields with
  | nil => rfl
  | cons field fields ih =>
    obtain ⟨k, w⟩ := field
    simp only [List.map_cons, List.mem_cons, not_or] at fresh
    simp [insertField, Ne.symm fresh.1, ih fresh.2]

/-- A key is found with the value last inserted for it. -/
theorem lookup_insertField {β : Type} (fields : List (String × β)) (key k : String) (v : β) :
    (insertField fields key v).lookup k = if k = key then some v else fields.lookup k := by
  induction fields with
  | nil =>
    by_cases same : k = key
    · simp [insertField, List.lookup_cons, same]
    · simp [insertField, List.lookup_cons, same, beq_false_of_ne same]
  | cons field fields ih =>
    obtain ⟨k', w⟩ := field
    by_cases here : k = k'
    · by_cases same : k' = key
      · simp [insertField, List.lookup_cons, here, same]
      · simp [insertField, List.lookup_cons, here, same]
    · by_cases same : k' = key
      · subst same
        simp [insertField, List.lookup_cons, here, beq_false_of_ne here]
      · simp [insertField, List.lookup_cons, here, same, beq_false_of_ne here, ih]

theorem mem_keys_insertField {β : Type} (fields : List (String × β)) (key k : String) (v : β) :
    k ∈ (insertField fields key v).map Prod.fst ↔ k = key ∨ k ∈ fields.map Prod.fst := by
  induction fields with
  | nil => simp [insertField]
  | cons field fields ih =>
    obtain ⟨k', w⟩ := field
    by_cases same : k' = key
    · subst same
      simp [insertField]
    · simp only [insertField, same, if_false, List.map_cons, List.mem_cons, ih]
      exact or_left_comm

/-- `Map::insert` keeps each key once. -/
theorem nodup_keys_insertField {β : Type} {fields : List (String × β)} (unique : (fields.map Prod.fst).Nodup)
    (key : String) (v : β) : ((insertField fields key v).map Prod.fst).Nodup := by
  induction fields with
  | nil => simp [insertField]
  | cons field fields ih =>
    obtain ⟨k', w⟩ := field
    rw [List.map_cons, List.nodup_cons] at unique
    by_cases same : k' = key
    · subst same
      simpa [insertField] using unique
    · simp only [insertField, if_neg same, List.map_cons, List.nodup_cons, mem_keys_insertField, not_or]
      exact ⟨⟨same, unique.1⟩, ih unique.2⟩

/-- What holds of every value of a map holds after inserting a value it holds of. -/
theorem forall_insertField {β : Type} {P : β → Prop} {fields : List (String × β)} (all : ∀ field ∈ fields, P field.2)
    {v : β} (holds : P v) (key : String) : ∀ field ∈ insertField fields key v, P field.2 := by
  induction fields with
  | nil => simpa [insertField] using holds
  | cons field fields ih =>
    obtain ⟨k', w⟩ := field
    have rest := fun field member => all field (List.mem_cons_of_mem _ member)
    intro field member
    by_cases same : k' = key
    · rw [insertField, if_pos same, List.mem_cons] at member
      rcases member with rfl | member
      exacts [holds, rest field member]
    · rw [insertField, if_neg same, List.mem_cons] at member
      rcases member with rfl | member
      exacts [all _ (List.mem_cons_self _ _), ih rest field member]

theorem lookup_eq_none_of_not_mem {β : Type} {fields : List (String × β)} {k : String}
    (absent : k ∉ fields.map Prod.fst) : fields.lookup k = none := by
  induction fields with
  | nil => rfl
  | cons field fields ih =>
    obtain ⟨key, v⟩ := field
    simp only [List.map_cons, List.mem_cons, not_or] at absent
    simpa [List.lookup_cons, beq_false_of_ne absent.1] using ih absent.2

/-- Inserting the entries of a map, in order, into another: a key is found with its
value in the first map, or else as the second holds it. -/
theorem lookup_foldl_insertField {β : Type} {entries : List (String × β)} (unique : (entries.map Prod.fst).Nodup)
    (fields : List (String × β)) (k : String) :
    (entries.foldl (fun fields entry => insertField fields entry.1 entry.2) fields).lookup k =
      (entries.lookup k).or (fields.lookup k) := by
  induction entries generalizing fields with
  | nil => rfl
  | cons entry entries ih =>
    obtain ⟨key, v⟩ := entry
    rw [List.map_cons, List.nodup_cons] at unique
    rw [List.foldl_cons, ih unique.2, lookup_insertField]
    by_cases same : k = key
    · subst same
      simp [List.lookup_cons, lookup_eq_none_of_not_mem unique.1]
    · simp [List.lookup_cons, same, beq_false_of_ne same]

/-- On keys held once, collecting the members changes nothing. -/
theorem collectFields_nodup {pairs : List (String × Value)} (unique : (pairs.map Prod.fst).Nodup) :
    collectFields pairs = pairs := by
  suffices fold : ∀ fields, ((fields ++ pairs).map Prod.fst).Nodup →
      pairs.foldl (fun fields pair => insertField fields pair.1 pair.2) fields = fields ++ pairs from
    fold [] unique
  clear unique
  induction pairs with
  | nil => simp
  | cons pair pairs ih =>
    intro fields unique
    have fresh : pair.1 ∉ fields.map Prod.fst := by
      rw [List.map_append, List.map_cons] at unique
      exact fun member => (List.nodup_append.mp unique).2.2 member (List.mem_cons_self _ _)
    rw [List.foldl_cons, insertField_fresh fresh, ih]
    · simp
    · simpa using unique

/-- Inserting well-formed values, in order, into a well-formed object keeps it well formed. -/
theorem foldl_insertField_WF {modules : List (String × Value)} (wf : ∀ module ∈ modules, module.2.WF)
    {fields : List (String × Value)} (fieldsWF : (Value.object fields).WF) :
    (Value.object (modules.foldl (fun fields module => insertField fields module.1 module.2) fields)).WF := by
  induction modules generalizing fields with
  | nil => exact fieldsWF
  | cons module modules ih =>
    rw [Value.WF_object] at fieldsWF
    exact ih (fun other member => wf other (List.mem_cons_of_mem _ member)) (Value.WF_object.mpr
      ⟨nodup_keys_insertField fieldsWF.1 _ _, forall_insertField fieldsWF.2 (wf module (List.mem_cons_self _ _)) _⟩)

/-- The members of an object text collect into a map, whatever keys the text repeats. -/
theorem collectFields_WF {pairs : List (String × Value)} (wf : fieldsWF pairs) :
    (Value.object (collectFields pairs)).WF :=
  foldl_insertField_WF (fieldsWF_iff.mp wf) ⟨List.nodup_nil, trivial⟩

theorem parseValue_quote (fuel : Nat) (rest : List Char) :
    parseValue (fuel + 1) ('"' :: rest) =
      (fun read => (.string (String.mk read.1), read.2)) <$> parseString rest := rfl

theorem parseValue_bracket (fuel : Nat) (rest : List Char) :
    parseValue (fuel + 1) ('[' :: rest) =
      if (skipWs rest).head? = some ']' then .ok (.array [], (skipWs rest).tail)
      else (do
        let (v, rest) ← parseValue fuel rest
        let (vs, rest) ← parseItems fuel rest
        pure (.array (v :: vs), rest)) := rfl

theorem parseValue_brace (fuel : Nat) (rest : List Char) :
    parseValue (fuel + 1) ('\x7b' :: rest) =
      match skipWs rest with
      | [] => .error "EOF while parsing an object"
      | d :: rest =>
        if d = '\x7d' then .ok (.object [], rest)
        else if d = '"' then (do
          let (key, rest) ← parseString rest
          let rest ← expectColon rest
          let (v, rest) ← parseValue fuel rest
          let (fields, rest) ← parseFields fuel rest
          pure (.object (collectFields ((String.mk key, v) :: fields)), rest))
        else .error "key must be a string" := rfl

private theorem parseValue_number {c : Char} (number : numberChar c = true) (fuel : Nat) (rest : List Char) :
    parseValue (fuel + 1) (c :: rest) = parseNumber (c :: rest) := by
  obtain ⟨n, t, f, quote, bracket, brace, -⟩ := numberChar_ne number
  simp only [parseValue, skipWs_cons (isWs_of_numberChar number), if_neg n, if_neg t, if_neg f,
    if_neg quote, if_neg bracket, if_neg brace]

theorem writeString_append (s : String) (rest : List Char) :
    writeString s ++ rest = '"' :: (escape s.data ++ '"' :: rest) := by
  simp [writeString]

theorem parseItems_comma (fuel : Nat) (rest : List Char) :
    parseItems (fuel + 1) (',' :: rest) = (do
      let (v, rest) ← parseValue fuel rest
      let (vs, rest) ← parseItems fuel rest
      pure (v :: vs, rest)) := rfl

theorem parseFields_comma (fuel : Nat) (rest : List Char) :
    parseFields (fuel + 1) (',' :: rest) =
      match skipWs rest with
      | [] => .error "EOF while parsing an object"
      | d :: rest =>
        if d = '"' then (do
          let (key, rest) ← parseString rest
          let rest ← expectColon rest
          let (v, rest) ← parseValue fuel rest
          let (fields, rest) ← parseFields fuel rest
          pure ((String.mk key, v) :: fields, rest))
        else .error "key must be a string" := rfl

theorem ok_bind (a : α) (f : α → Except ε β) : (Except.ok a >>= f) = f a := rfl

theorem bind_eq_ok {x : Except ε α} {f : α → Except ε β} {b : β} (done : (x >>= f) = .ok b) :
    ∃ a, x = .ok a ∧ f a = .ok b := by
  cases x with
  | error e => cases done
  | ok a => exact ⟨a, rfl, done⟩

theorem expectColon_colon (rest : List Char) : expectColon (':' :: rest) = .ok rest := rfl

theorem map_eq_ok {x : Except ε α} {f : α → β} {b : β} (done : f <$> x = .ok b) : ∃ a, x = .ok a ∧ f a = b := by
  cases x with
  | error e => cases done
  | ok a => exact ⟨a, rfl, Except.ok.inj done⟩

mutual
/-- The parser reads back the value the writer writes, and stops where it ends. -/
theorem parseValue_write : ∀ (v : Value) (fuel : Nat) (rest : List Char), v.WF → v.depth ≤ fuel →
    Delimited rest → parseValue fuel (v.write ++ rest) = .ok (v, rest)
  | v, 0, _, _, enough, _ => absurd enough (Nat.not_le.mpr v.depth_pos)
  | .null, _ + 1, _, _, _, _ => by rfl
  | .bool true, _ + 1, _, _, _, _ => by rfl
  | .bool false, _ + 1, _, _, _, _ => by rfl
  | .number n, fuel + 1, rest, _, _, delimited => by
    obtain ⟨c, tail, shape⟩ := n.text_cons
    have number := n.chars c (shape ▸ List.mem_cons_self c tail)
    show parseValue (fuel + 1) (n.text ++ rest) = _
    rw [shape, List.cons_append, parseValue_number number, ← List.cons_append, ← shape,
      parseNumber_text n delimited]
  | .string s, fuel + 1, rest, _, _, _ => by
    show parseValue (fuel + 1) (writeString s ++ rest) = _
    rw [writeString_append, parseValue_quote, parseString_escape]
    rfl
  | .array [], _ + 1, _, _, _, _ => by rfl
  | .array (v :: vs), fuel + 1, rest, wf, enough, _ => by
    have room : v.depth ≤ fuel ∧ itemsDepth vs ≤ fuel := by
      simp only [Value.depth, itemsDepth] at enough; omega
    have first := parseValue_write v fuel (writeItems vs ++ rest) wf.1 room.1 (writeItems_delimited vs rest)
    have others := parseItems_write vs fuel rest wf.2 room.2
    obtain ⟨c, tail, shape, notWs, notClose⟩ := write_head v
    have opens : (skipWs (v.write ++ (writeItems vs ++ rest))).head? ≠ some ']' := by
      rw [shape, List.cons_append, skipWs_cons notWs]
      simpa using notClose
    show parseValue (fuel + 1) ('[' :: (v.write ++ writeItems vs ++ rest)) = _
    rw [parseValue_bracket, List.append_assoc, if_neg opens, first, ok_bind]
    simp only [others, ok_bind]
    rfl
  | .object [], _ + 1, _, _, _, _ => by rfl
  | .object ((key, v) :: fields), fuel + 1, rest, wf, enough, _ => by
    have room : v.depth ≤ fuel ∧ fieldsDepth fields ≤ fuel := by
      simp only [Value.depth, fieldsDepth] at enough; omega
    have value := parseValue_write v fuel (writeFields fields ++ rest) wf.2.1
      room.1 (writeFields_delimited fields rest)
    have others := parseFields_write fields fuel rest wf.2.2 room.2
    show parseValue (fuel + 1) ('\x7b' :: (writeString key ++ ':' :: (v.write ++ writeFields fields) ++ rest)) = _
    rw [parseValue_brace, List.append_assoc, writeString_append, skipWs_cons (by rfl)]
    simp only [if_neg (show '"' ≠ '\x7d' by decide), if_true, List.cons_append, List.append_assoc]
    rw [parseString_escape, ok_bind, expectColon_colon, ok_bind, value, ok_bind, others, ok_bind,
      collectFields_nodup wf.1]
    rfl

theorem parseItems_write : ∀ (vs : List Value) (fuel : Nat) (rest : List Char), itemsWF vs →
    itemsDepth vs ≤ fuel → parseItems fuel (writeItems vs ++ rest) = .ok (vs, rest)
  | vs, 0, _, _, enough => absurd enough (Nat.not_le.mpr (itemsDepth_pos vs))
  | [], _ + 1, _, _, _ => by rfl
  | v :: vs, fuel + 1, rest, wf, enough => by
    have room : v.depth ≤ fuel ∧ itemsDepth vs ≤ fuel := by
      simp only [itemsDepth] at enough; omega
    have first := parseValue_write v fuel (writeItems vs ++ rest) wf.1 room.1 (writeItems_delimited vs rest)
    have others := parseItems_write vs fuel rest wf.2 room.2
    show parseItems (fuel + 1) (',' :: (v.write ++ writeItems vs ++ rest)) = _
    rw [parseItems_comma, List.append_assoc, first, ok_bind]
    simp only [others, ok_bind]
    rfl

theorem parseFields_write : ∀ (fields : List (String × Value)) (fuel : Nat) (rest : List Char),
    fieldsWF fields → fieldsDepth fields ≤ fuel →
    parseFields fuel (writeFields fields ++ rest) = .ok (fields, rest)
  | fields, 0, _, _, enough => absurd enough (Nat.not_le.mpr (fieldsDepth_pos fields))
  | [], _ + 1, _, _, _ => by rfl
  | (key, v) :: fields, fuel + 1, rest, wf, enough => by
    have room : v.depth ≤ fuel ∧ fieldsDepth fields ≤ fuel := by
      simp only [fieldsDepth] at enough; omega
    have value := parseValue_write v fuel (writeFields fields ++ rest) wf.1
      room.1 (writeFields_delimited fields rest)
    have others := parseFields_write fields fuel rest wf.2 room.2
    show parseFields (fuel + 1) (',' :: (writeString key ++ ':' :: (v.write ++ writeFields fields) ++ rest)) = _
    rw [parseFields_comma, List.append_assoc, writeString_append, skipWs_cons (by rfl)]
    simp only [if_true, List.cons_append, List.append_assoc]
    rw [parseString_escape, ok_bind, expectColon_colon, ok_bind, value, ok_bind, others, ok_bind]
    rfl
end

mutual
theorem Value.depth_le_write : ∀ v : Value, v.depth ≤ v.write.length
  | .null | .bool true | .bool false | .string _ | .array [] | .object [] => by
    simp [Value.depth, itemsDepth, fieldsDepth, Value.write, writeString]
  | .number n => by
    obtain ⟨c, rest, shape⟩ := n.text_cons
    simp [Value.depth, Value.write, shape]
  | .array (v :: vs) => by
    have first := Value.depth_le_write v
    have others := itemsDepth_le_write vs
    simp only [Value.depth, itemsDepth, Value.write, List.length_cons, List.length_append]
    omega
  | .object ((_, v) :: fields) => by
    have value := Value.depth_le_write v
    have others := fieldsDepth_le_write fields
    simp only [Value.depth, fieldsDepth, Value.write, List.length_cons, List.length_append]
    omega

theorem itemsDepth_le_write : ∀ vs : List Value, itemsDepth vs ≤ (writeItems vs).length
  | [] => le_refl 1
  | v :: vs => by
    have first := Value.depth_le_write v
    have others := itemsDepth_le_write vs
    simp only [itemsDepth, writeItems, List.length_cons, List.length_append]
    omega

theorem fieldsDepth_le_write : ∀ fields : List (String × Value), fieldsDepth fields ≤ (writeFields fields).length
  | [] => le_refl 1
  | (_, v) :: fields => by
    have value := Value.depth_le_write v
    have others := fieldsDepth_le_write fields
    simp only [fieldsDepth, writeFields, List.length_cons, List.length_append]
    omega
end

/-- `from_str` reads back what `to_string` writes, for every value whose objects
hold each key once. -/
theorem fromStr_write {v : Value} (wf : v.WF) : fromStr v.write = .ok v := by
  have read := parseValue_write v (v.write.length + 1) [] wf (by have := v.depth_le_write; omega)
    (fun c member => by cases member)
  rw [List.append_nil] at read
  simp only [fromStr, read, ok_bind]
  rfl

theorem fromStrMap_write {fields : List (String × Value)} (wf : (Value.object fields).WF) :
    fromStrMap (Value.object fields).write = .ok fields := by
  simp only [fromStrMap, fromStr_write wf, ok_bind]
  rfl

/-! ## What is read is well formed -/

/-- Every value a parse step returns, when it succeeds, satisfies `P`. -/
def Yields (P : α → Prop) (result : Except String (α × List Char)) : Prop :=
  ∀ a rest, result = .ok (a, rest) → P a

namespace Yields
variable {P : α → Prop}

theorem error (message : String) : Yields P (.error message) := fun _ _ failed => by cases failed

theorem ok {a : α} (holds : P a) (rest : List Char) : Yields P (.ok (a, rest)) := fun _ _ read => by
  cases read
  exact holds

theorem ite {c : Prop} [Decidable c] {x y : Except String (α × List Char)} (yes : Yields P x) (no : Yields P y) :
    Yields P (if c then x else y) := by
  split <;> assumption

theorem bind {x : Except String β} {f : β → Except String (α × List Char)}
    (rest : ∀ b, x = .ok b → Yields P (f b)) : Yields P (x >>= f) := fun _ _ done => by
  obtain ⟨b, first, done⟩ := bind_eq_ok done
  exact rest b first _ _ done

theorem map {x : Except String β} {f : β → α × List Char} (holds : ∀ b, P (f b).1) : Yields P (f <$> x) :=
    fun _ _ done => by
  obtain ⟨b, -, read⟩ := map_eq_ok done
  simpa only [read] using holds b

end Yields

theorem parseIdent_WF {expected : List Char} {v : Value} (scalar : v.WF) (text : List Char) :
    Yields Value.WF (parseIdent expected v text) :=
  .ite (.ok scalar _) (.error _)

theorem parseNumber_WF (text : List Char) : Yields Value.WF (parseNumber text) := by
  simp only [parseNumber]
  split
  · exact .error _
  split
  · exact .ok trivial _
  · exact .error _

mutual
/-- Every value the parser reads holds each key once in each of its objects: a key
the text repeats is collected into the entry of its first occurrence. -/
theorem parseValue_WF : ∀ (fuel : Nat) (text : List Char), Yields Value.WF (parseValue fuel text)
  | 0, _ => .error _
  | fuel + 1, text => by
    rw [parseValue]
    split
    · exact .error _
    refine .ite (parseIdent_WF (by trivial) _) (.ite (parseIdent_WF (by trivial) _) (.ite (parseIdent_WF (by trivial) _)
      (.ite (.map fun _ => trivial) (.ite ?array (.ite ?object (parseNumber_WF _))))))
    · exact .ite (.ok trivial _) (.bind fun (_, _) first => .bind fun (_, _) others =>
        .ok ⟨parseValue_WF fuel _ _ _ first, parseItems_WF fuel _ _ _ others⟩ _)
    · split
      · exact .error _
      refine .ite (.ok ⟨List.nodup_nil, trivial⟩ _) (.ite ?_ (.error _))
      exact .bind fun (_, _) _ => .bind fun _ _ => .bind fun (_, _) first => .bind fun (_, _) others =>
        .ok (by exact collectFields_WF ⟨parseValue_WF fuel _ _ _ first, parseFields_WF fuel _ _ _ others⟩) _

theorem parseItems_WF : ∀ (fuel : Nat) (text : List Char), Yields itemsWF (parseItems fuel text)
  | 0, _ => .error _
  | fuel + 1, text => by
    rw [parseItems]
    split
    · exact .error _
    exact .ite (.bind fun (_, _) first => .bind fun (_, _) others =>
      .ok ⟨parseValue_WF fuel _ _ _ first, parseItems_WF fuel _ _ _ others⟩ _) (.ite (.ok trivial _) (.error _))

theorem parseFields_WF : ∀ (fuel : Nat) (text : List Char), Yields fieldsWF (parseFields fuel text)
  | 0, _ => .error _
  | fuel + 1, text => by
    rw [parseFields]
    split
    · exact .error _
    refine .ite ?_ (.ite (.ok trivial _) (.error _))
    split
    · exact .error _
    exact .ite (.bind fun (_, _) _ => .bind fun _ _ => .bind fun (_, _) first => .bind fun (_, _) others =>
      .ok ⟨parseValue_WF fuel _ _ _ first, parseFields_WF fuel _ _ _ others⟩ _) (.error _)
end

/-- What `from_str` accepts is well formed. -/
theorem fromStr_WF {text : List Char} {v : Value} (read : fromStr text = .ok v) : v.WF := by
  obtain ⟨⟨_, _⟩, parsed, read⟩ := bind_eq_ok read
  dsimp only at read
  split at read
  · cases read
    exact parseValue_WF _ _ _ _ parsed
  · cases read

/-- What `from_str` accepts as a map is a well-formed object. -/
theorem fromStrMap_WF {text : List Char} {fields : List (String × Value)} (read : fromStrMap text = .ok fields) :
    (Value.object fields).WF := by
  obtain ⟨_, parsed, read⟩ := bind_eq_ok read
  split at read
  · cases read
    exact fromStr_WF parsed
  · cases read

end Tardis.Json
