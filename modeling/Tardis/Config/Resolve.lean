import Tardis.Config.Tokens

/-! The decryption branch of `do_init`: the map is written as JSON, `decryption`
runs over the text, and the text is read back. The tokens of the written text are
the tokens of its strings, so when serde_json writes every plaintext as it is, the
pass over the text is the substitution in each string of the tree. -/

namespace Tardis.Json

open Tardis.Config

/-- A string literal as pieces: its quotes around the escaped split of its text. -/
def stringPieces (s : String) : List Piece := .char '"' :: (escapePieces (tokenize s.data) ++ [.char '"'])

mutual
/-- The split of the written value: each string split into its tokens, every
other character copied. -/
def Value.pieces : Value → List Piece
  | .null => Value.null.write.map .char
  | .bool b => (Value.bool b).write.map .char
  | .number n => n.text.map .char
  | .string s => stringPieces s
  | .array [] => [.char '[', .char ']']
  | .array (v :: vs) => .char '[' :: (v.pieces ++ itemsPieces vs)
  | .object [] => [.char '\x7b', .char '\x7d']
  | .object ((key, v) :: fields) =>
    .char '\x7b' :: (stringPieces key ++ .char ':' :: (v.pieces ++ fieldsPieces fields))

def itemsPieces : List Value → List Piece
  | [] => [.char ']']
  | v :: vs => .char ',' :: (v.pieces ++ itemsPieces vs)

def fieldsPieces : List (String × Value) → List Piece
  | [] => [.char '\x7d']
  | (key, v) :: fields => .char ',' :: (stringPieces key ++ .char ':' :: (v.pieces ++ fieldsPieces fields))
end

mutual
/-- The tree with the tokens of each string replaced by their plaintexts: the same
keys, the same shape, every other leaf as it is. -/
def Value.substitute (plain : List Char → List Char) : Value → Value
  | .null => .null
  | .bool b => .bool b
  | .number n => .number n
  | .string s => .string (String.mk (Config.substitute plain s.data))
  | .array items => .array (itemsSubstitute plain items)
  | .object fields => .object (fieldsSubstitute plain fields)

def itemsSubstitute (plain : List Char → List Char) : List Value → List Value
  | [] => []
  | v :: vs => v.substitute plain :: itemsSubstitute plain vs

def fieldsSubstitute (plain : List Char → List Char) : List (String × Value) → List (String × Value)
  | [] => []
  | (key, v) :: fields => (key, v.substitute plain) :: fieldsSubstitute plain fields
end

mutual
/-- The payloads of the tokens in the tree's strings, in order. -/
def Value.payloads : Value → List (List Char)
  | .string s => Config.payloads (tokenize s.data)
  | .array items => itemsPayloads items
  | .object fields => fieldsPayloads fields
  | _ => []

def itemsPayloads : List Value → List (List Char)
  | [] => []
  | v :: vs => v.payloads ++ itemsPayloads vs

def fieldsPayloads : List (String × Value) → List (List Char)
  | [] => []
  | (_, v) :: fields => v.payloads ++ fieldsPayloads fields
end

mutual
/-- No key of the tree holds a token. -/
def Value.KeysFree : Value → Prop
  | .array items => itemsKeysFree items
  | .object fields => fieldsKeysFree fields
  | _ => True

def itemsKeysFree : List Value → Prop
  | [] => True
  | v :: vs => v.KeysFree ∧ itemsKeysFree vs

def fieldsKeysFree : List (String × Value) → Prop
  | [] => True
  | (key, v) :: fields => Config.payloads (tokenize key.data) = [] ∧ v.KeysFree ∧ fieldsKeysFree fields
end

/-! ## The split of a written value -/

theorem cut_writeItems (vs : List Value) (rest : List Char) : Cut (writeItems vs ++ rest) := by
  cases vs <;> (intro c member; cases member; decide)

theorem cut_writeFields (fields : List (String × Value)) (rest : List Char) : Cut (writeFields fields ++ rest) := by
  rcases fields with _ | ⟨⟨_, _⟩, _⟩ <;> (intro c member; cases member; decide)

theorem split_writeString (s : String) {rest : List Char} {pieces : List Piece} (split : Split rest pieces) :
    Split (writeString s ++ rest) (stringPieces s ++ pieces) := by
  have body := (split_tokenize s.data).escape.append_cut (by decide) (@Split.cons '"' _ _ (by decide) split)
  rw [writeString_append, stringPieces, List.cons_append, List.append_assoc, List.singleton_append]
  exact .cons (by decide) body

mutual
/-- The written value splits into the tokens of its strings and the characters
around them, whatever follows it past a cut. -/
theorem Value.split_write : ∀ (v : Value) {rest : List Char} {pieces : List Piece}, Cut rest →
    Split rest pieces → Split (v.write ++ rest) (v.pieces ++ pieces)
  | .null, _, _, cut, split => Split.chars_cut (by decide) cut split
  | .bool true, _, _, cut, split => Split.chars_cut (by decide) cut split
  | .bool false, _, _, cut, split => Split.chars_cut (by decide) cut split
  | .number n, _, _, cut, split =>
    Split.chars_cut (fun c member same => absurd (n.chars c member) (by rw [same]; decide)) cut split
  | .string s, _, _, _, split => split_writeString s split
  | .array [], _, _, _, split => .cons (by decide) (.cons (by decide) split)
  | .array (v :: vs), rest, _, _, split => by
    have inner := Value.split_write v (cut_writeItems vs rest) (split_writeItems vs split)
    simp only [Value.write, Value.pieces, List.cons_append, List.append_assoc]
    exact .cons (by decide) inner
  | .object [], _, _, _, split => .cons (by decide) (.cons (by decide) split)
  | .object ((key, v) :: fields), rest, _, _, split => by
    have inner := Value.split_write v (cut_writeFields fields rest) (split_writeFields fields split)
    have member := split_writeString key (@Split.cons ':' _ _ (by decide) inner)
    simp only [Value.write, Value.pieces, List.cons_append, List.append_assoc]
    exact .cons (by decide) member

theorem split_writeItems : ∀ (vs : List Value) {rest : List Char} {pieces : List Piece},
    Split rest pieces → Split (writeItems vs ++ rest) (itemsPieces vs ++ pieces)
  | [], _, _, split => .cons (by decide) split
  | v :: vs, rest, _, split => by
    have inner := Value.split_write v (cut_writeItems vs rest) (split_writeItems vs split)
    simp only [writeItems, itemsPieces, List.cons_append, List.append_assoc]
    exact .cons (by decide) inner

theorem split_writeFields : ∀ (fields : List (String × Value)) {rest : List Char} {pieces : List Piece},
    Split rest pieces → Split (writeFields fields ++ rest) (fieldsPieces fields ++ pieces)
  | [], _, _, split => .cons (by decide) split
  | (key, v) :: fields, rest, _, split => by
    have inner := Value.split_write v (cut_writeFields fields rest) (split_writeFields fields split)
    have member := split_writeString key (@Split.cons ':' _ _ (by decide) inner)
    simp only [writeFields, fieldsPieces, List.cons_append, List.append_assoc]
    exact .cons (by decide) member
end

/-! ## Rendering the split -/

section
variable {plain : List Char → List Char}

theorem render_stringPieces (s : String)
    (written : ∀ payload ∈ Config.payloads (tokenize s.data), escape (plain payload) = plain payload) :
    render plain (stringPieces s) = writeString (String.mk (Config.substitute plain s.data)) := by
  simp [stringPieces, render, render_escapePieces written, writeString, Config.substitute]

theorem render_keyPieces {key : String} (free : Config.payloads (tokenize key.data) = []) :
    render plain (stringPieces key) = writeString key := by
  rw [render_stringPieces key (by simp [free]), Config.substitute, (split_tokenize key.data).render_self free]

mutual
/-- With no token in a key and every plaintext written as it is, the rendered
split of the written value is the written substituted value. -/
theorem Value.render_pieces : ∀ v : Value, v.KeysFree →
    (∀ payload ∈ v.payloads, escape (plain payload) = plain payload) →
    render plain v.pieces = (v.substitute plain).write
  | .null, _, _ | .bool _, _, _ | .number _, _, _ => render_chars plain _
  | .string s, _, written => render_stringPieces s written
  | .array [], _, _ | .object [], _, _ => rfl
  | .array (v :: vs), ⟨free, others⟩, written => by
    have first := Value.render_pieces v free fun p member => written p (List.mem_append_left _ member)
    have rest := render_itemsPieces vs others fun p member => written p (List.mem_append_right _ member)
    simp only [Value.pieces, Value.substitute, itemsSubstitute, Value.write, render, render_append, first, rest]
  | .object ((key, v) :: fields), ⟨keyFree, free, others⟩, written => by
    have value := Value.render_pieces v free fun p member => written p (List.mem_append_left _ member)
    have rest := render_fieldsPieces fields others fun p member => written p (List.mem_append_right _ member)
    show render plain (.char '\x7b' :: (stringPieces key ++ .char ':' :: (v.pieces ++ fieldsPieces fields))) = _
    rw [render, render_append, render_keyPieces keyFree, render, render_append, value, rest]
    rfl

theorem render_itemsPieces : ∀ vs : List Value, itemsKeysFree vs →
    (∀ payload ∈ itemsPayloads vs, escape (plain payload) = plain payload) →
    render plain (itemsPieces vs) = writeItems (itemsSubstitute plain vs)
  | [], _, _ => rfl
  | v :: vs, ⟨free, others⟩, written => by
    have first := Value.render_pieces v free fun p member => written p (List.mem_append_left _ member)
    have rest := render_itemsPieces vs others fun p member => written p (List.mem_append_right _ member)
    simp only [itemsPieces, itemsSubstitute, writeItems, render, render_append, first, rest]

theorem render_fieldsPieces : ∀ fields : List (String × Value), fieldsKeysFree fields →
    (∀ payload ∈ fieldsPayloads fields, escape (plain payload) = plain payload) →
    render plain (fieldsPieces fields) = writeFields (fieldsSubstitute plain fields)
  | [], _, _ => rfl
  | (key, v) :: fields, ⟨keyFree, free, others⟩, written => by
    have value := Value.render_pieces v free fun p member => written p (List.mem_append_left _ member)
    have rest := render_fieldsPieces fields others fun p member => written p (List.mem_append_right _ member)
    show render plain (.char ',' :: (stringPieces key ++ .char ':' :: (v.pieces ++ fieldsPieces fields))) = _
    rw [render, render_append, render_keyPieces keyFree, render, render_append, value, rest]
    rfl
end

end

theorem payloads_stringPieces (s : String) : Config.payloads (stringPieces s) = Config.payloads (tokenize s.data) := by
  simp [stringPieces, Config.payloads, payloads_escapePieces]

mutual
/-- With no token in a key, the tokens of the written value are those of its strings. -/
theorem Value.payloads_pieces : ∀ v : Value, v.KeysFree → Config.payloads v.pieces = v.payloads
  | .null, _ | .bool _, _ | .number _, _ => payloads_chars _
  | .string s, _ => payloads_stringPieces s
  | .array [], _ | .object [], _ => rfl
  | .array (v :: vs), ⟨free, others⟩ => by
    simp only [Value.pieces, Value.payloads, itemsPayloads, Config.payloads, payloads_append,
      Value.payloads_pieces v free, payloads_itemsPieces vs others]
  | .object ((key, v) :: fields), ⟨keyFree, free, others⟩ => by
    show Config.payloads (.char '\x7b' :: (stringPieces key ++ .char ':' :: (v.pieces ++ fieldsPieces fields))) = _
    rw [Config.payloads, payloads_append, payloads_stringPieces, keyFree, Config.payloads, payloads_append,
      Value.payloads_pieces v free, payloads_fieldsPieces fields others]
    rfl

theorem payloads_itemsPieces : ∀ vs : List Value, itemsKeysFree vs → Config.payloads (itemsPieces vs) = itemsPayloads vs
  | [], _ => rfl
  | v :: vs, ⟨free, others⟩ => by
    simp only [itemsPieces, itemsPayloads, Config.payloads, payloads_append, Value.payloads_pieces v free,
      payloads_itemsPieces vs others]

theorem payloads_fieldsPieces : ∀ fields : List (String × Value), fieldsKeysFree fields →
    Config.payloads (fieldsPieces fields) = fieldsPayloads fields
  | [], _ => rfl
  | (key, v) :: fields, ⟨keyFree, free, others⟩ => by
    show Config.payloads (.char ',' :: (stringPieces key ++ .char ':' :: (v.pieces ++ fieldsPieces fields))) = _
    rw [Config.payloads, payloads_append, payloads_stringPieces, keyFree, Config.payloads, payloads_append,
      Value.payloads_pieces v free, payloads_fieldsPieces fields others]
    rfl
end

theorem keys_fieldsSubstitute (plain : List Char → List Char) (fields : List (String × Value)) :
    (fieldsSubstitute plain fields).map Prod.fst = fields.map Prod.fst := by
  induction fields with
  | nil => rfl
  | cons field fields ih =>
    obtain ⟨key, v⟩ := field
    simp [fieldsSubstitute, ih]

mutual
/-- Substitution keeps every key, so a map stays a map. -/
theorem Value.substitute_WF (plain : List Char → List Char) : ∀ v : Value, v.WF → (v.substitute plain).WF
  | .null, _ | .bool _, _ | .number _, _ | .string _, _ => trivial
  | .array items, wf => itemsSubstitute_WF plain items wf
  | .object fields, ⟨unique, wf⟩ =>
    ⟨(keys_fieldsSubstitute plain fields).symm ▸ unique, fieldsSubstitute_WF plain fields wf⟩

theorem itemsSubstitute_WF (plain : List Char → List Char) :
    ∀ vs : List Value, itemsWF vs → itemsWF (itemsSubstitute plain vs)
  | [], _ => trivial
  | v :: vs, ⟨first, others⟩ => ⟨Value.substitute_WF plain v first, itemsSubstitute_WF plain vs others⟩

theorem fieldsSubstitute_WF (plain : List Char → List Char) :
    ∀ fields : List (String × Value), fieldsWF fields → fieldsWF (fieldsSubstitute plain fields)
  | [], _ => trivial
  | (_, v) :: fields, ⟨value, others⟩ => ⟨Value.substitute_WF plain v value, fieldsSubstitute_WF plain fields others⟩
end

end Tardis.Json

namespace Tardis.Config

open Tardis.Json

/-- Modelled from the spec: `TardisFuns::json` is not under src/. Its `obj_to_string`
is `serde_json::to_string`, which writes a map of values without failing. -/
def objToString (v : Value) : String := String.mk v.write

/-- Modelled from the spec: `str_to_obj` is `serde_json::from_str` into the target
type, which `read` reads; a text it rejects is a `FormatError` with its message. -/
def strToObj (read : List Char → Except String α) (text : String) : Outcome α :=
  match read text.data with
  | .ok value => .ok value
  | .error message => .error (.err (.formatError message ""))

/-- The decryption branch of `do_init` for the workspace map:
`str_to_obj(&decryption(&obj_to_string(&workspace_config)?, &salt)?)`. -/
def decryptWorkspace (decryptEcb : String → String → Except TardisError String)
    (workspace : List (String × Value)) (salt : String) : Outcome (List (String × Value)) := do
  let wc ← decryption decryptEcb (objToString (.object workspace)) salt
  strToObj fromStrMap wc

section
variable (decryptEcb : String → String → Except TardisError String) (salt : String)

/-- Over a written value with no token in a key, `decryption` writes the value
with its strings substituted, when every plaintext is written as it is. -/
theorem decryption_objToString (saltLength : salt.utf8ByteSize = 16) {v : Value} (keysFree : v.KeysFree)
    {plain : List Char → String}
    (decrypts : ∀ payload ∈ v.payloads, decryptEcb (String.mk payload) salt = .ok (plain payload))
    (written : ∀ payload ∈ v.payloads, ∀ c ∈ (plain payload).data, Plain c) :
    decryption decryptEcb (objToString v) salt = .ok (objToString (v.substitute fun payload => (plain payload).data)) := by
  have split := @Value.split_write v [] [] (fun _ none => by cases none) .nil
  rw [List.append_nil, List.append_nil] at split
  have replaced : ∀ payload ∈ Config.payloads v.pieces,
      decryptMatch decryptEcb salt (tokenText payload) = .ok ((fun payload => (plain payload).data) payload) := by
    intro payload member
    rw [v.payloads_pieces keysFree] at member
    rw [decryptMatch_tokenText, decrypts payload member]
  rw [objToString, decryption_long_salt decryptEcb salt saltLength]
  show String.mk <$> replaceAll _ v.write.length v.write = _
  rw [replaceAll_split split replaced (le_refl _),
    v.render_pieces keysFree fun payload member => escape_of_plain (written payload member)]
  rfl

end

/-- A plaintext holding a quote goes into the text as it is: `{"k":"ENC(AB)"}`
becomes `{"k":"""}`, which `str_to_obj` rejects, where the substitution in the
tree maps `k` to the string `"`. -/
theorem decryptWorkspace_rejects_quote (decryptEcb : String → String → Except TardisError String)
    (quote : decryptEcb "AB" "0123456789abcdef" = .ok "\"") :
    decryptWorkspace decryptEcb [("k", .string "ENC(AB)")] "0123456789abcdef" =
      .error (.err (.formatError "expected comma or \x7d" "")) := by
  have split := @Value.split_write (.object [("k", .string "ENC(AB)")]) [] [] (fun _ none => by cases none) .nil
  rw [List.append_nil, List.append_nil] at split
  have replaced : ∀ payload ∈ Config.payloads (Value.object [("k", .string "ENC(AB)")]).pieces,
      decryptMatch decryptEcb "0123456789abcdef" (tokenText payload) = .ok ((fun _ => ['"']) payload) := by
    intro payload member
    rw [show Config.payloads (Value.object [("k", .string "ENC(AB)")]).pieces = [['A', 'B']] from rfl] at member
    obtain rfl := List.mem_singleton.mp member
    rw [decryptMatch_tokenText, quote]
  rw [decryptWorkspace, objToString, decryption_long_salt _ _ (by decide)]
  show (do let wc ← String.mk <$> replaceAll _ (Value.write _).length (Value.write _); strToObj fromStrMap wc) = _
  rw [replaceAll_split split replaced (le_refl _)]
  rfl

theorem decryptWorkspace_rejects_quote_decrypting :
    (fun _ _ => .ok "\"" : String → String → Except TardisError String) "AB" "0123456789abcdef" = .ok "\"" ∧
    decryptWorkspace (fun _ _ => .ok "\"") [("k", .string "ENC(AB)")] "0123456789abcdef" =
      .error (.err (.formatError "expected comma or \x7d" "")) :=
  ⟨rfl, decryptWorkspace_rejects_quote _ rfl⟩

end Tardis.Config
