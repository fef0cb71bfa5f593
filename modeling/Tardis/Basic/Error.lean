import Mathlib.Data.List.Infix

/-! The error enum of `basic/error.rs`, its display formats, and `code` and
`message`, which cut the displayed text at the first `GENERAL_SPLIT`. -/

namespace Tardis.Basic

/-- The variants of `TardisError`. `Box` carries a boxed error, of which only
its `Debug` text is ever shown, so it is kept as that text. -/
inductive TardisError where
  | custom (code message : String)
  | box (debug : String)
  | internalError (message : String)
  | notImplemented (message : String)
  | ioError (message : String)
  | badRequest (message : String)
  | unauthorized (message : String)
  | notFound (message : String)
  | formatError (message : String)
  | timeout (message : String)
  | conflict (message : String)
  | inner (message : String)
  deriving DecidableEq, Repr

/-- The display format `{code}##{message}` shared by every variant but `_Inner`. -/
def withCode (code message : String) : String := code ++ "##" ++ message

namespace TardisError

/-- `Display`, as `derive_more` generates it from the `#[display]` attributes. -/
def toString : TardisError → String
  | custom code message => withCode code message
  | box debug => withCode "000000000000" debug
  | internalError message => withCode "500000000000" message
  | notImplemented message => withCode "501000000000" message
  | ioError message => withCode "503000000000" message
  | badRequest message => withCode "400000000000" message
  | unauthorized message => withCode "401000000000" message
  | notFound message => withCode "404000000000" message
  | formatError message => withCode "406000000000" message
  | timeout message => withCode "408000000000" message
  | conflict message => withCode "409000000000" message
  | inner message => message

/-- The code written before `##` by the variant's display format. -/
def variantCode : TardisError → String
  | custom code _ => code
  | box _ => "000000000000"
  | internalError _ => "500000000000"
  | notImplemented _ => "501000000000"
  | ioError _ => "503000000000"
  | badRequest _ => "400000000000"
  | unauthorized _ => "401000000000"
  | notFound _ => "404000000000"
  | formatError _ => "406000000000"
  | timeout _ => "408000000000"
  | conflict _ => "409000000000"
  | inner _ => ""

/-- The text written after `##`: the `String` field, or the `Debug` text of a box. -/
def payload : TardisError → String
  | custom _ message | box message | internalError message | notImplemented message
  | ioError message | badRequest message | unauthorized message | notFound message
  | formatError message | timeout message | conflict message | inner message => message

theorem toString_eq_withCode {e : TardisError} (notInner : ∀ message, e ≠ inner message) :
    e.toString = withCode e.variantCode e.payload := by
  cases e <;> first | rfl | exact absurd rfl (notInner _)

end TardisError

/-- `str::find`: the offset of the first occurrence of `pattern` in `text`.
Offsets are counted in characters where Rust counts bytes; the two give the same
cut of the text. -/
def find (pattern : List Char) : List Char → Option Nat
  | [] => if pattern.isPrefixOf [] then some 0 else none
  | text@(_ :: rest) => if pattern.isPrefixOf text then some 0 else (find pattern rest).map (· + 1)

/-- A code that `##` cannot start inside: it holds no `##` and does not end with `#`. -/
structure SplitFree (code : List Char) : Prop where
  noSplit : ¬ ['#', '#'] <:+: code
  noHash : code.getLast? ≠ some '#'

theorem SplitFree.tail {c : Char} {code : List Char} (free : SplitFree (c :: code)) :
    SplitFree code := by
  refine ⟨fun inside => free.noSplit (inside.trans (List.suffix_cons c code).isInfix), ?_⟩
  cases code with
  | nil => simp
  | cons d rest => simpa [List.getLast?_cons_cons] using free.noHash

theorem find_split {code : List Char} (free : SplitFree code) (message : List Char) :
    find ['#', '#'] (code ++ '#' :: '#' :: message) = some code.length := by
  induction code with
  | nil => simp [find, List.isPrefixOf]
  | cons c rest ih =>
    have starts : ['#', '#'].isPrefixOf (c :: rest ++ '#' :: '#' :: message) = false := by
      by_cases hash : c = '#'
      · subst hash
        cases rest with
        | nil => exact absurd (by simp) free.noHash
        | cons d tail =>
          have hd : d ≠ '#' := by
            rintro rfl
            exact free.noSplit (List.prefix_append ['#', '#'] tail).isInfix
          simp [List.isPrefixOf, Ne.symm hd]
      · simp [List.isPrefixOf, Ne.symm hash]
    rw [List.cons_append, find, ← List.cons_append, starts]
    simp [ih free.tail]

section
variable (generalSplit : String)

/-- The offset of `GENERAL_SPLIT` in the displayed text, or the panic of the `expect`. -/
def splitIndex (text : List Char) : Except String Nat :=
  match find generalSplit.data text with
  | some index => .ok index
  | none => .error "Illegal error description format"

/-- `TardisError::code`: the displayed text before the first `GENERAL_SPLIT`. The
error side of the result is the message of a panic. -/
def code (e : TardisError) : Except String String :=
  (fun index => String.mk (e.toString.data.take index)) <$> splitIndex generalSplit e.toString.data

/-- `TardisError::message`: the displayed text from two places past the first
`GENERAL_SPLIT`. -/
def message (e : TardisError) : Except String String :=
  (fun index => String.mk (e.toString.data.drop (index + 2))) <$> splitIndex generalSplit e.toString.data

end

/-- The errors `code` and `message` split back into their parts: `_Inner`, which
shows no code, and custom codes in which `##` could start early are excluded. -/
def Splittable (e : TardisError) : Prop :=
  (∀ message, e ≠ .inner message) ∧ ∀ code message, e = .custom code message → SplitFree code.data

private theorem splitFree_variantCode {e : TardisError} (splittable : Splittable e) :
    SplitFree e.variantCode.data := by
  cases e with
  | custom code message => exact splittable.2 code message rfl
  | inner message => exact absurd rfl (splittable.1 message)
  | _ => exact ⟨by simp only [TardisError.variantCode]; decide, by simp only [TardisError.variantCode]; decide⟩

theorem withCode_data (code message : String) :
    (withCode code message).data = code.data ++ '#' :: '#' :: message.data := by
  simp only [withCode, String.data_append, List.append_assoc]
  rfl

theorem splitIndex_withCode {code : String} (free : SplitFree code.data) (message : String) :
    splitIndex "##" (withCode code message).data = .ok code.length := by
  rw [splitIndex, withCode_data, find_split free]
  rfl

theorem code_message_split (generalSplit : String) (split : generalSplit = "##")
    (e : TardisError) (splittable : Splittable e) :
    code generalSplit e = .ok e.variantCode ∧ message generalSplit e = .ok e.payload ∧
      e.variantCode ++ generalSplit ++ e.payload = e.toString := by
  subst split
  rw [code, message, TardisError.toString_eq_withCode splittable.1,
    splitIndex_withCode (splitFree_variantCode splittable)]
  refine ⟨?_, ?_, rfl⟩
  · show Except.ok (String.mk ((withCode _ _).data.take e.variantCode.data.length)) = _
    rw [withCode_data, List.take_left]
  · show Except.ok (String.mk ((withCode _ _).data.drop (e.variantCode.data.length + 2))) = _
    have split : e.variantCode.data ++ '#' :: '#' :: e.payload.data =
        (e.variantCode.data ++ ['#', '#']) ++ e.payload.data := by simp
    rw [withCode_data, split, List.drop_left' (by simp)]

theorem code_message_split_timeout :
    Splittable (.timeout "a##b") ∧
      code "##" (.timeout "a##b") = .ok "408000000000" ∧ message "##" (.timeout "a##b") = .ok "a##b" ∧
      "408000000000" ++ "##" ++ "a##b" = (TardisError.timeout "a##b").toString :=
  ⟨⟨fun _ h => (nomatch h), fun _ _ h => (nomatch h)⟩,
    code_message_split "##" rfl (.timeout "a##b") ⟨fun _ h => (nomatch h), fun _ _ h => (nomatch h)⟩⟩

/-- `find` finds nothing exactly when the pattern does not occur. -/
theorem find_eq_none_iff (pattern : List Char) : ∀ text, find pattern text = none ↔ ¬ pattern <:+: text
  | [] => by
    cases pattern <;> simp [find, List.isPrefixOf]
  | c :: rest => by
    rw [find, List.infix_cons_iff, not_or, ← find_eq_none_iff pattern rest, ← List.isPrefixOf_iff_prefix]
    cases pattern.isPrefixOf (c :: rest) <;> simp

/-- `splitIndex` panics exactly on a text that holds no `##`. -/
theorem splitIndex_error_iff (text : List Char) :
    (∃ panic, splitIndex "##" text = .error panic) ↔ ¬ ['#', '#'] <:+: text := by
  rw [← find_eq_none_iff]
  unfold splitIndex
  split <;> simp [*]

/-- Every displayed error holds `##`, but an `_Inner` one whose text does not. -/
theorem TardisError.split_toString_iff (e : TardisError) :
    ['#', '#'] <:+: e.toString.data ↔ ∀ s, e = .inner s → ['#', '#'] <:+: s.data := by
  by_cases inner : ∃ s, e = .inner s
  · obtain ⟨s, rfl⟩ := inner
    simp [TardisError.toString]
  · push_neg at inner
    rw [TardisError.toString_eq_withCode inner, withCode_data]
    exact iff_of_true ⟨e.variantCode.data, e.payload.data, by simp⟩ fun s same => absurd same (inner s)

theorem map_error_iff {x : Except ε α} {f : α → β} :
    (∃ panic, f <$> x = .error panic) ↔ ∃ panic, x = .error panic := by
  cases x <;> simp [Functor.map, Except.map]

/-- `code` and `message` panic (their `expect`) exactly on the `_Inner` errors whose
text holds no `GENERAL_SPLIT`: every other error, a custom code holding `##`
included, is cut without a panic. -/
theorem code_message_panic (e : TardisError) :
    ((∃ panic, code "##" e = .error panic) ↔ ∃ s, e = .inner s ∧ ¬ ['#', '#'] <:+: s.data) ∧
      ((∃ panic, message "##" e = .error panic) ↔ ∃ s, e = .inner s ∧ ¬ ['#', '#'] <:+: s.data) := by
  have panics : (∃ panic, splitIndex "##" e.toString.data = .error panic) ↔
      ∃ s, e = .inner s ∧ ¬ ['#', '#'] <:+: s.data := by
    rw [splitIndex_error_iff, TardisError.split_toString_iff]
    simp
  exact ⟨map_error_iff.trans panics, map_error_iff.trans panics⟩

example : code "##" (.inner "boom") = .error "Illegal error description format" := rfl

end Tardis.Basic
