import Tardis.Config.Decryption
import Tardis.Json.Parse

/-! Where the tokens of a text are when the text is put together from parts. A
token holds only letters, digits, `+`, `/` and parentheses, so no token runs
across a quote or a bracket, and escaping a string keeps its tokens as they are. -/

namespace Tardis.Config

open Tardis.Json

/-- A character no token holds. -/
def Blocks (c : Char) : Prop := payloadChar c = false ∧ c ≠ '(' ∧ c ≠ ')'

instance : DecidablePred Blocks := fun c =>
  inferInstanceAs (Decidable (payloadChar c = false ∧ c ≠ '(' ∧ c ≠ ')'))

/-- What may follow a written value: the end of the text, or a character no token holds. -/
def Cut (rest : List Char) : Prop := ∀ c ∈ rest.head?, Blocks c

theorem startsWithToken_head {c : Char} {rest : List Char} (token : StartsWithToken (c :: rest)) :
    c = 'E' ∧ rest.head? = some 'N' := by
  obtain ⟨payload, after, _, shape⟩ := token
  simp only [tokenText_append, List.cons.injEq] at shape
  exact ⟨shape.1, by rw [shape.2]; rfl⟩

theorem not_blocks_of_mem_tokenText {payload : List Char} (valid : IsPayload payload) {c : Char}
    (member : c ∈ tokenText payload) : ¬ Blocks c := by
  rintro ⟨free, notOpen, notClose⟩
  simp only [tokenText, List.mem_cons, List.mem_append, List.not_mem_nil, or_false] at member
  rcases member with rfl | rfl | rfl | rfl | inside | rfl
  · exact absurd free (by decide)
  · exact absurd free (by decide)
  · exact absurd free (by decide)
  · exact notOpen rfl
  · rw [valid c inside] at free; cases free
  · exact notClose rfl

/-- A token that starts before a character no token holds ends before it. -/
theorem startsWithToken_cut {xs ys : List Char} {c : Char} (blocks : Blocks c)
    (token : StartsWithToken (xs ++ c :: ys)) : StartsWithToken xs := by
  obtain ⟨payload, after, valid, shape⟩ := token
  rcases List.append_eq_append_iff.mp shape with ⟨rest, inside, crossing⟩ | ⟨rest, before, _⟩
  · cases rest with
    | nil => exact ⟨payload, [], valid, by simp [inside]⟩
    | cons d rest =>
      obtain ⟨rfl, -⟩ := List.cons.inj crossing
      exact absurd blocks (not_blocks_of_mem_tokenText valid (by rw [inside]; simp))
  · exact ⟨payload, rest, valid, before⟩

/-- Split at a character no token holds, a text splits as its two parts do. -/
theorem Split.append_cut {xs ys : List Char} {c : Char} {pieces rest : List Piece} (left : Split xs pieces)
    (blocks : Blocks c) (right : Split (c :: ys) rest) : Split (xs ++ c :: ys) (pieces ++ rest) := by
  induction left with
  | nil => exact right
  | token valid _ ih => rw [List.append_assoc]; exact .token valid ih
  | char noToken _ ih => exact .char (fun token => noToken (startsWithToken_cut blocks token)) ih

/-- A character other than `E` starts no token, whatever follows it. -/
theorem Split.cons {c : Char} {rest : List Char} {pieces : List Piece} (notE : c ≠ 'E')
    (split : Split rest pieces) : Split (c :: rest) (.char c :: pieces) :=
  .char (fun token => notE (startsWithToken_head token).1) split

theorem Split.chars {xs rest : List Char} {pieces : List Piece} (noE : ∀ c ∈ xs, c ≠ 'E')
    (split : Split rest pieces) : Split (xs ++ rest) (xs.map .char ++ pieces) := by
  induction xs with
  | nil => exact split
  | cons c xs ih =>
    exact .cons (noE c (List.mem_cons_self c xs)) (ih fun d member => noE d (List.mem_cons_of_mem c member))

/-- Characters other than `N`, before a cut, start no token: an `E` among them is
followed by no `N`. -/
theorem Split.chars_cut {xs rest : List Char} {pieces : List Piece} (noN : ∀ c ∈ xs, c ≠ 'N')
    (cut : Cut rest) (split : Split rest pieces) : Split (xs ++ rest) (xs.map .char ++ pieces) := by
  induction xs with
  | nil => exact split
  | cons c xs ih =>
    refine .char (fun token => ?_) (ih fun d member => noN d (List.mem_cons_of_mem c member))
    have next := (startsWithToken_head token).2
    cases xs with
    | nil => exact absurd (cut 'N' next) (by decide)
    | cons d xs => exact noN d (by simp) (by simpa using next)

/-! ## The leftmost split, computed -/

/-- The split of `Split`, scanned as `replaceAll` scans. -/
def tokenizeFuel : Nat → List Char → List Piece
  | 0, _ => []
  | _ + 1, [] => []
  | fuel + 1, c :: rest =>
    match matchToken (c :: rest) with
    | some (payload, after) => .token payload :: tokenizeFuel fuel after
    | none => .char c :: tokenizeFuel fuel rest

def tokenize (text : List Char) : List Piece := tokenizeFuel text.length text

/-- The text with each of its tokens replaced by `plain` of its payload. -/
def substitute (plain : List Char → List Char) (text : List Char) : List Char := render plain (tokenize text)

theorem split_tokenizeFuel : ∀ (fuel : Nat) (text : List Char), text.length ≤ fuel →
    Split text (tokenizeFuel fuel text)
  | _, [], _ => by cases ‹Nat› <;> exact .nil
  | 0, _ :: _, enough => absurd enough (by simp)
  | fuel + 1, c :: rest, enough => by
    unfold tokenizeFuel
    split
    next payload after found =>
      obtain ⟨valid, shape⟩ := matchToken_some found
      have shorter : after.length ≤ fuel := by
        have size := congrArg List.length shape
        simp only [List.length_cons, List.length_append, tokenText_length] at size enough
        omega
      rw [shape]
      exact .token valid (split_tokenizeFuel fuel after shorter)
    next missing =>
      exact .char (matchToken_none missing) (split_tokenizeFuel fuel rest (by simpa using enough))

theorem split_tokenize (text : List Char) : Split text (tokenize text) :=
  split_tokenizeFuel _ text (le_refl _)

/-! ## Rendering -/

@[simp] theorem render_append (plain : List Char → List Char) (pieces rest : List Piece) :
    render plain (pieces ++ rest) = render plain pieces ++ render plain rest := by
  induction pieces with
  | nil => rfl
  | cons piece pieces ih => cases piece <;> simp [render, ih]

@[simp] theorem render_chars (plain : List Char → List Char) (xs : List Char) :
    render plain (xs.map .char) = xs := by
  induction xs with
  | nil => rfl
  | cons c xs ih => simp [render, ih]

@[simp] theorem payloads_append (pieces rest : List Piece) :
    payloads (pieces ++ rest) = payloads pieces ++ payloads rest := by
  induction pieces with
  | nil => rfl
  | cons piece pieces ih => cases piece <;> simp [payloads, ih]

@[simp] theorem payloads_chars (xs : List Char) : payloads (xs.map .char) = [] := by
  induction xs with
  | nil => rfl
  | cons c xs ih => simp [payloads, ih]

/-! ## Escaping keeps the tokens -/

/-- The pieces of the escaped text: each character as the characters it is written
as, each token as it is. -/
def escapePieces : List Piece → List Piece
  | [] => []
  | .char c :: pieces => (escapeChar c).map .char ++ escapePieces pieces
  | .token payload :: pieces => .token payload :: escapePieces pieces

theorem plain_of_payloadChar {c : Char} (payload : payloadChar c = true) : Plain c := by
  have control : ∀ n < 0x20, payloadChar (Char.ofNat n) = false := by decide
  refine ⟨?_, ?_, ?_⟩
  · rintro rfl; exact absurd payload (by decide)
  · rintro rfl; exact absurd payload (by decide)
  · refine Nat.le_of_not_lt fun low => ?_
    rw [← Char.ofNat_toNat c, control _ low] at payload
    cases payload

theorem plain_tokenText {payload : List Char} (valid : IsPayload payload) : ∀ c ∈ tokenText payload, Plain c := by
  intro c member
  simp only [tokenText, List.mem_cons, List.mem_append, List.not_mem_nil, or_false] at member
  rcases member with rfl | rfl | rfl | rfl | inside | rfl
  all_goals first | exact plain_of_payloadChar (valid c inside) | decide

/-- A text whose escape starts with characters written as they are starts with them. -/
theorem escape_eq_append {s t u : List Char} (plain : ∀ c ∈ t, Plain c) (shape : escape s = t ++ u) :
    ∃ rest, s = t ++ rest := by
  induction t generalizing s with
  | nil => exact ⟨s, rfl⟩
  | cons d t ih =>
    have notBackslash : '\\' ≠ d := fun same => (plain d (List.mem_cons_self d t)).2.1 same.symm
    cases s with
    | nil => cases shape
    | cons c s =>
      rw [escape_cons] at shape
      rcases escapeChar_cases c with ⟨_, _, written⟩ | ⟨_, written⟩ | ⟨_, written⟩ <;>
        simp only [written, List.cons_append, List.nil_append, List.cons.injEq] at shape
      · exact absurd shape.1 notBackslash
      · exact absurd shape.1 notBackslash
      · obtain ⟨rfl, tail⟩ := shape
        obtain ⟨rest, rfl⟩ := ih (fun e member => plain e (List.mem_cons_of_mem c member)) tail
        exact ⟨rest, rfl⟩

theorem startsWithToken_of_escape {s : List Char} (token : StartsWithToken (escape s)) : StartsWithToken s := by
  obtain ⟨payload, after, valid, shape⟩ := token
  obtain ⟨rest, rfl⟩ := escape_eq_append (plain_tokenText valid) shape
  exact ⟨payload, rest, valid, rfl⟩

private theorem hexDigit_ne_E : ∀ k < 16, hexDigit k ≠ 'E' := by decide

/-- The escaped text splits into the escapes of the characters and the same tokens. -/
theorem Split.escape {text : List Char} {pieces : List Piece} (split : Split text pieces) :
    Split (escape text) (escapePieces pieces) := by
  induction split with
  | nil => exact .nil
  | token valid _ ih =>
    rw [escape_append, escape_of_plain (plain_tokenText valid)]
    exact .token valid ih
  | @char c rest pieces noToken _ ih =>
    rw [escape_cons, escapePieces]
    rcases escapeChar_cases c with ⟨e, short, written⟩ | ⟨control, written⟩ | ⟨plain, written⟩ <;>
      rw [written]
    · have notE : e ≠ 'E' := by
        rintro rfl
        rw [show shortEscape 'E' = none by decide] at short
        cases short
      exact Split.chars (by simpa using notE) ih
    · have high : c.toNat / 16 < 16 := by omega
      exact Split.chars (by simp [hexDigit_ne_E _ high, hexDigit_ne_E _ (Nat.mod_lt _ (by decide))]) ih
    · exact .char (fun token => noToken (startsWithToken_of_escape (by rwa [escape_cons, written]))) ih

theorem payloads_escapePieces (pieces : List Piece) : payloads (escapePieces pieces) = payloads pieces := by
  induction pieces with
  | nil => rfl
  | cons piece pieces ih => cases piece <;> simp [escapePieces, payloads, ih]

/-- With plaintexts that escaping leaves as they are, rendering the escaped split
escapes the rendered text. -/
theorem render_escapePieces {plain : List Char → List Char} {pieces : List Piece}
    (written : ∀ payload ∈ payloads pieces, escape (plain payload) = plain payload) :
    render plain (escapePieces pieces) = escape (render plain pieces) := by
  induction pieces with
  | nil => rfl
  | cons piece pieces ih =>
    cases piece with
    | char c => simp [escapePieces, render, ih (by simpa [payloads] using written)]
    | token payload =>
      simp only [payloads, List.mem_cons, forall_eq_or_imp] at written
      simp [escapePieces, render, escape_append, written.1, ih written.2]

end Tardis.Config
