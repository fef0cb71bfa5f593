import Tardis.Config.Error

/-! `decryption` of `config_processor.rs`. The pattern `ENC\([A-Za-z0-9+/]*\)`
is searched for left to right and every match is replaced by what `decrypt_ecb`
gives for its payload. The split of a text into tokens and the characters
between them is stated as a judgment of its own, and the scan is shown to follow it. -/

namespace Tardis.Config

/-- `[A-Za-z0-9+/]`, the payload alphabet of the pattern. -/
def payloadChar (c : Char) : Bool := c.isAlphanum || c == '+' || c == '/'

def IsPayload (payload : List Char) : Prop := ∀ c ∈ payload, payloadChar c = true

instance : DecidablePred IsPayload := fun payload =>
  inferInstanceAs (Decidable (∀ c ∈ payload, payloadChar c = true))

/-- The text `ENC(payload)`. -/
def tokenText (payload : List Char) : List Char := 'E' :: 'N' :: 'C' :: '(' :: (payload ++ [')'])

/-- A match of the pattern at the head of the text: its payload and the text
after it. The class holds no `)`, so the greedy run stops where `)` must stand. -/
def matchToken : List Char → Option (List Char × List Char)
  | 'E' :: 'N' :: 'C' :: '(' :: rest =>
    match rest.dropWhile payloadChar with
    | ')' :: after => some (rest.takeWhile payloadChar, after)
    | _ => none
  | _ => none

/-- `Regex::replace_all`: each match is passed whole to `replace` and the search
resumes after it; between matches the text is copied. `fuel` bounds the steps,
and the length of the text is enough. -/
def replaceAll (replace : List Char → Except ε (List Char)) : Nat → List Char → Except ε (List Char)
  | 0, _ => .ok []
  | _ + 1, [] => .ok []
  | fuel + 1, c :: rest =>
    match matchToken (c :: rest) with
    | some (payload, after) => do
      let plain ← replace (tokenText payload)
      let out ← replaceAll replace fuel after
      pure (plain ++ out)
    | none => (c :: ·) <$> replaceAll replace fuel rest

/-- The closure of `decryption`: the slice `data[4..data.len() - 1]` of the match,
decrypted, with the panic of `expect` when `decrypt_ecb` fails. A match is ASCII,
so its byte offsets are its character offsets. -/
def decryptMatch (decryptEcb : String → String → Except TardisError String) (salt : String)
    (data : List Char) : Outcome (List Char) :=
  match decryptEcb (String.mk (data.drop 4).dropLast) salt with
  | .ok plain => .ok plain.data
  | .error _ => .error (.panic "[Tardis.Config] Decryption error")

/-- `decryption`. `salt.len()` counts bytes; the pattern is a constant that
`Regex::new` always accepts. -/
def decryption (decryptEcb : String → String → Except TardisError String) (text salt : String) :
    Outcome String :=
  if salt.utf8ByteSize ≠ 16 then .error (.err (.formatError "[Tardis.Config] [salt] Length must be 16" ""))
  else String.mk <$> replaceAll (decryptMatch decryptEcb salt) text.data.length text.data

/-! ## The leftmost split -/

/-- One piece of a text: a character copied as it is, or a token by its payload. -/
inductive Piece where
  | char (c : Char)
  | token (payload : List Char)
  deriving DecidableEq, Repr

def StartsWithToken (text : List Char) : Prop :=
  ∃ payload after, IsPayload payload ∧ text = tokenText payload ++ after

/-- The split of a text into its leftmost non-overlapping tokens and the
characters between them: where a token starts it is taken, and otherwise one
character is copied and the search goes on after it. -/
inductive Split : List Char → List Piece → Prop where
  | nil : Split [] []
  | token {payload after pieces} : IsPayload payload → Split after pieces →
      Split (tokenText payload ++ after) (.token payload :: pieces)
  | char {c rest pieces} : ¬ StartsWithToken (c :: rest) → Split rest pieces →
      Split (c :: rest) (.char c :: pieces)

/-- The payloads of the tokens, in order. -/
def payloads : List Piece → List (List Char)
  | [] => []
  | .char _ :: pieces => payloads pieces
  | .token payload :: pieces => payload :: payloads pieces

/-- The text with each token replaced by `plain` of its payload. -/
def render (plain : List Char → List Char) : List Piece → List Char
  | [] => []
  | .char c :: pieces => c :: render plain pieces
  | .token payload :: pieces => plain payload ++ render plain pieces

theorem tokenText_append (payload after : List Char) :
    tokenText payload ++ after = 'E' :: 'N' :: 'C' :: '(' :: (payload ++ ')' :: after) := by
  simp [tokenText]

theorem tokenText_length (payload : List Char) : (tokenText payload).length = payload.length + 5 := by
  simp [tokenText]

private theorem payloadChar_paren : payloadChar ')' = false := by decide

private theorem dropWhile_payload {payload : List Char} (valid : IsPayload payload) (after : List Char) :
    (payload ++ ')' :: after).dropWhile payloadChar = ')' :: after ∧
      (payload ++ ')' :: after).takeWhile payloadChar = payload := by
  induction payload with
  | nil => simp [payloadChar_paren]
  | cons c rest ih =>
    have head := valid c (List.mem_cons_self c rest)
    have tail := ih fun d member => valid d (List.mem_cons_of_mem c member)
    simp [head, tail]

theorem matchToken_tokenText {payload : List Char} (valid : IsPayload payload) (after : List Char) :
    matchToken (tokenText payload ++ after) = some (payload, after) := by
  obtain ⟨dropped, taken⟩ := dropWhile_payload valid after
  simp only [tokenText_append, matchToken, dropped, taken]

theorem matchToken_some {text payload after : List Char}
    (found : matchToken text = some (payload, after)) :
    IsPayload payload ∧ text = tokenText payload ++ after := by
  unfold matchToken at found
  split at found
  next rest =>
    split at found
    next after' dropped =>
      cases found
      refine ⟨fun c member => List.mem_takeWhile_imp member, ?_⟩
      rw [tokenText_append, ← dropped, List.takeWhile_append_dropWhile]
    next => cases found
  next => cases found

theorem matchToken_none {text : List Char} (missing : matchToken text = none) :
    ¬ StartsWithToken text := by
  rintro ⟨payload, after, valid, rfl⟩
  rw [matchToken_tokenText valid] at missing
  cases missing

theorem matchToken_eq_none {text : List Char} (noToken : ¬ StartsWithToken text) :
    matchToken text = none := by
  cases found : matchToken text with
  | none => rfl
  | some result => exact absurd ⟨_, _, matchToken_some found⟩ noToken

theorem Split.exists (text : List Char) : ∃ pieces, Split text pieces := by
  induction' hsize : text.length using Nat.strong_induction_on with size ih generalizing text
  cases text with
  | nil => exact ⟨[], .nil⟩
  | cons c rest =>
    cases found : matchToken (c :: rest) with
    | some result =>
      obtain ⟨valid, shape⟩ := matchToken_some found
      have shorter : result.2.length < size := by
        rw [← hsize, shape, List.length_append, tokenText_length]; omega
      obtain ⟨pieces, split⟩ := ih _ shorter result.2 rfl
      rw [shape]
      exact ⟨_, .token valid split⟩
    | none =>
      obtain ⟨pieces, split⟩ := ih rest.length (by simp [← hsize]) rest rfl
      exact ⟨_, .char (matchToken_none found) split⟩

theorem Split.unique {text : List Char} {first second : List Piece}
    (left : Split text first) (right : Split text second) : first = second := by
  induction left generalizing second with
  | nil => cases right; rfl
  | @token payload after pieces valid _ ih =>
    generalize shape : tokenText payload ++ after = text at right
    cases right with
    | nil => simp [tokenText] at shape
    | @token payload' after' _ valid' split' =>
      have same := (matchToken_tokenText valid after).symm.trans
        ((congrArg matchToken shape).trans (matchToken_tokenText valid' after'))
      simp only [Option.some.injEq, Prod.mk.injEq] at same
      obtain ⟨rfl, rfl⟩ := same
      rw [ih split']
    | char noToken _ => exact absurd ⟨payload, after, valid, shape.symm⟩ noToken
  | @char c rest pieces noToken _ ih =>
    generalize shape : c :: rest = text at right
    cases right with
    | nil => cases shape
    | token valid' _ => exact absurd ⟨_, _, valid', shape⟩ noToken
    | char _ split' =>
      obtain ⟨rfl, rfl⟩ := List.cons.inj shape
      rw [ih split']

theorem Split.render_self {text : List Char} {pieces : List Piece} (split : Split text pieces)
    (noTokens : payloads pieces = []) (plain : List Char → List Char) : render plain pieces = text := by
  induction split with
  | nil => rfl
  | token _ _ _ => cases noTokens
  | char _ _ ih => simp only [render, ih noTokens]

theorem Split.no_tokens {text : List Char} {pieces : List Piece} (split : Split text pieces)
    (noToken : ∀ suffix, suffix <:+ text → ¬ StartsWithToken suffix) : payloads pieces = [] := by
  induction split with
  | nil => rfl
  | @token payload after _ valid _ _ =>
    exact absurd ⟨payload, after, valid, rfl⟩ (noToken _ (List.suffix_refl _))
  | @char c rest _ _ _ ih =>
    exact ih fun suffix inside => noToken suffix (inside.trans (List.suffix_cons c rest))

/-! ## The scan follows the split -/

section
variable {ε : Type} {replace : List Char → Except ε (List Char)}

private theorem fuel_succ {fuel size : Nat} (enough : size + 1 ≤ fuel) : ∃ n, fuel = n + 1 ∧ size ≤ n :=
  ⟨fuel - 1, by omega, by omega⟩

theorem replaceAll_token {payload : List Char} (valid : IsPayload payload) (after : List Char) (fuel : Nat) :
    replaceAll replace (fuel + 1) (tokenText payload ++ after) =
      (do let plain ← replace (tokenText payload); let out ← replaceAll replace fuel after; pure (plain ++ out)) := by
  rw [tokenText_append, replaceAll, ← tokenText_append, matchToken_tokenText valid]

theorem replaceAll_char {c : Char} {rest : List Char} (noToken : ¬ StartsWithToken (c :: rest)) (fuel : Nat) :
    replaceAll replace (fuel + 1) (c :: rest) = (c :: ·) <$> replaceAll replace fuel rest := by
  rw [replaceAll, matchToken_eq_none noToken]

/-- With every token of the split replaced successfully, the scan renders the split. -/
theorem replaceAll_split {text : List Char} {pieces : List Piece} (split : Split text pieces)
    {plain : List Char → List Char}
    (replaced : ∀ payload ∈ payloads pieces, replace (tokenText payload) = .ok (plain payload))
    {fuel : Nat} (enough : text.length ≤ fuel) :
    replaceAll replace fuel text = .ok (render plain pieces) := by
  induction split generalizing fuel with
  | nil => cases fuel <;> rfl
  | @token payload after pieces valid _ ih =>
    have long : after.length + 1 ≤ fuel := by
      rw [List.length_append, tokenText_length] at enough; omega
    obtain ⟨fuel, rfl, room⟩ := fuel_succ long
    rw [replaceAll_token valid, replaced payload (List.mem_cons_self _ _),
      ih (fun other member => replaced other (List.mem_cons_of_mem _ member)) room]
    rfl
  | @char c rest pieces noToken _ ih =>
    obtain ⟨fuel, rfl, room⟩ := fuel_succ (show rest.length + 1 ≤ fuel by simpa using enough)
    rw [replaceAll_char noToken, ih replaced room]
    rfl

/-- When `replace` fails only with `failure`, one failing token of the split makes
the whole scan fail with it: no partly replaced text is returned. -/
theorem replaceAll_fails {text : List Char} {pieces : List Piece} (split : Split text pieces)
    {failure : ε} (only : ∀ data, (∃ out, replace data = .ok out) ∨ replace data = .error failure)
    (fails : ∃ payload ∈ payloads pieces, replace (tokenText payload) = .error failure)
    {fuel : Nat} (enough : text.length ≤ fuel) :
    replaceAll replace fuel text = .error failure := by
  induction split generalizing fuel with
  | nil => simp [payloads] at fails
  | @token payload after pieces valid _ ih =>
    have long : after.length + 1 ≤ fuel := by
      rw [List.length_append, tokenText_length] at enough; omega
    obtain ⟨fuel, rfl, room⟩ := fuel_succ long
    rw [replaceAll_token valid]
    rcases only (tokenText payload) with ⟨out, replaced⟩ | failed
    · have later : ∃ other ∈ payloads pieces, replace (tokenText other) = .error failure := by
        obtain ⟨other, member, failed⟩ := fails
        rcases List.mem_cons.mp member with rfl | member
        · rw [replaced] at failed; cases failed
        · exact ⟨other, member, failed⟩
      rw [replaced, ih later room]
      rfl
    · rw [failed]
      rfl
  | @char c rest pieces noToken _ ih =>
    obtain ⟨fuel, rfl, room⟩ := fuel_succ (show rest.length + 1 ≤ fuel by simpa using enough)
    rw [replaceAll_char noToken, ih fails room]
    rfl

end

/-! ## `decryption` -/

section
variable (decryptEcb : String → String → Except TardisError String) (salt : String)

theorem decryptMatch_tokenText (payload : List Char) :
    decryptMatch decryptEcb salt (tokenText payload) =
      match decryptEcb (String.mk payload) salt with
      | .ok plain => .ok plain.data
      | .error _ => .error (.panic "[Tardis.Config] Decryption error") := by
  simp [decryptMatch, tokenText]

theorem decryption_long_salt (saltLength : salt.utf8ByteSize = 16) (text : String) :
    decryption decryptEcb text salt =
      String.mk <$> replaceAll (decryptMatch decryptEcb salt) text.data.length text.data := by
  simp [decryption, saltLength]

theorem decryption_short_salt (saltLength : salt.utf8ByteSize ≠ 16) (text : String) :
    decryption decryptEcb text salt =
      .error (.err (.formatError "[Tardis.Config] [salt] Length must be 16" "")) := by
  simp [decryption, saltLength]

end

theorem decryption_replaces_tokens (decryptEcb : String → String → Except TardisError String)
    (salt : String) (saltLength : salt.utf8ByteSize = 16) (text : String) :
    (∀ (pieces : List Piece) (plain : List Char → String), Split text.data pieces →
      (∀ payload ∈ payloads pieces, decryptEcb (String.mk payload) salt = .ok (plain payload)) →
      decryption decryptEcb text salt = .ok (String.mk (render (fun payload => (plain payload).data) pieces))) ∧
    ((∀ suffix, suffix <:+ text.data → ¬ StartsWithToken suffix) →
      decryption decryptEcb text salt = .ok text) := by
  have scan {pieces : List Piece} {plain : List Char → String} (split : Split text.data pieces)
      (decrypts : ∀ payload ∈ payloads pieces, decryptEcb (String.mk payload) salt = .ok (plain payload)) :
      decryption decryptEcb text salt = .ok (String.mk (render (fun payload => (plain payload).data) pieces)) := by
    rw [decryption_long_salt decryptEcb salt saltLength, replaceAll_split split _ (le_refl _)]
    · rfl
    · intro payload member
      rw [decryptMatch_tokenText, decrypts payload member]
  refine ⟨fun _ _ split decrypts => scan split decrypts, fun noToken => ?_⟩
  obtain ⟨pieces, split⟩ := Split.exists text.data
  have empty := split.no_tokens noToken
  rw [@scan pieces (fun _ => "") split (by simp [empty]), split.render_self empty]

/-- The inner token of `ENC(ENC(ab))` is the match; the characters around it are copied. -/
theorem decryption_replaces_nested_token :
    "0123456789abcdef".utf8ByteSize = 16 ∧
      decryption (fun payload _ => .ok ("<" ++ payload ++ ">")) "ENC(ENC(ab))" "0123456789abcdef" =
        .ok "ENC(<ab>)" :=
  ⟨by decide, ((decryption_replaces_tokens (fun payload _ => .ok ("<" ++ payload ++ ">"))
    "0123456789abcdef" (by decide) "ENC(ENC(ab))").1
    [.char 'E', .char 'N', .char 'C', .char '(', .token ['a', 'b'], .char ')']
    (fun payload => "<" ++ String.mk payload ++ ">")
    (.char (matchToken_none rfl) (.char (matchToken_none rfl) (.char (matchToken_none rfl)
      (.char (matchToken_none rfl) (@Split.token ['a', 'b'] [')'] _ (by decide)
        (.char (matchToken_none rfl) .nil))))))
    (by simp [payloads])).trans rfl⟩

theorem decryption_panics_on_failed_token (decryptEcb : String → String → Except TardisError String)
    (salt : String) (saltLength : salt.utf8ByteSize = 16) (text : String) {pieces : List Piece}
    (split : Split text.data pieces)
    (failing : ∃ payload ∈ payloads pieces, ∃ error, decryptEcb (String.mk payload) salt = .error error) :
    decryption decryptEcb text salt = .error (.panic "[Tardis.Config] Decryption error") := by
  rw [decryption_long_salt decryptEcb salt saltLength, replaceAll_fails split _ _ (le_refl _)]
  · rfl
  · intro data
    unfold decryptMatch
    split
    · exact .inl ⟨_, rfl⟩
    · exact .inr rfl
  · obtain ⟨payload, member, error, failed⟩ := failing
    exact ⟨payload, member, by rw [decryptMatch_tokenText, failed]⟩

/-- `zz` is no ciphertext `decrypt_ecb` accepts: the closure's `expect` panics. -/
theorem decryption_panics_at_undecryptable_token
    (decryptEcb : String → String → Except TardisError String)
    (rejected : ∃ error, decryptEcb "zz" "0123456789abcdef" = .error error) :
    decryption decryptEcb "ENC(zz)" "0123456789abcdef" = .error (.panic "[Tardis.Config] Decryption error") :=
  decryption_panics_on_failed_token decryptEcb "0123456789abcdef" (by decide) "ENC(zz)"
    (@Split.token ['z', 'z'] [] [] (by decide) .nil) ⟨['z', 'z'], by simp [payloads], rejected⟩

theorem decryption_panics_at_undecryptable_token_rejecting :
    (∃ error, (fun _ _ => .error (.formatError "invalid hex" "")) "zz" "0123456789abcdef" =
      (.error error : Except TardisError String)) ∧
    decryption (fun _ _ => .error (.formatError "invalid hex" "")) "ENC(zz)" "0123456789abcdef" =
      .error (.panic "[Tardis.Config] Decryption error") :=
  ⟨⟨_, rfl⟩, decryption_panics_at_undecryptable_token _ ⟨_, rfl⟩⟩

end Tardis.Config
