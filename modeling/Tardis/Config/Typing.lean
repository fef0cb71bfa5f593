import Tardis.Config.Processor

/-! The order `do_init` resolves the framework section in: typed from the tree
first, then written to JSON, decrypted and read back. A token is decrypted only
where its field typed with the token still in it, and what comes back is the typed
section with the tokens of its strings and URLs substituted. -/

namespace Tardis.Config

open Tardis.Json

/-! ## A URL keeps its scheme -/

/-- A text with no `(` holds no token: each character is copied. -/
theorem Split.chars_noParen : ∀ {xs : List Char}, '(' ∉ xs → Split xs (xs.map .char)
  | [], _ => .nil
  | c :: xs, noParen =>
    .char (fun ⟨_, _, _, shape⟩ => noParen (by rw [shape]; simp [tokenText]))
      (Split.chars_noParen fun inside => noParen (List.mem_cons_of_mem c inside))

/-- A text with a scheme is its scheme, `:` and the rest; no `(` comes before the
`:`, and any rest after it keeps the scheme. -/
theorem hasScheme_split {text : List Char} (scheme : hasScheme text = true) :
    ∃ head more, text = head ++ ':' :: more ∧ '(' ∉ head ∧ ∀ rest, hasScheme (head ++ ':' :: rest) = true := by
  obtain _ | ⟨c, rest⟩ := text
  · cases scheme
  simp only [hasScheme, Bool.and_eq_true, beq_iff_eq] at scheme
  obtain ⟨alpha, colon⟩ := scheme
  obtain ⟨more, dropped⟩ : ∃ more, rest.dropWhile schemeChar = ':' :: more := by
    cases found : rest.dropWhile schemeChar with
    | nil => simp [found] at colon
    | cons d more => simp only [found, List.head?_cons, Option.some.injEq] at colon; exact ⟨more, by rw [colon]⟩
  have taken : ∀ d ∈ rest.takeWhile schemeChar, schemeChar d = true := fun _ => List.mem_takeWhile_imp
  refine ⟨c :: rest.takeWhile schemeChar, more, ?_, ?_, fun after => ?_⟩
  · rw [List.cons_append, ← dropped, List.takeWhile_append_dropWhile]
  · rintro (_ | ⟨_, inside⟩)
    · cases alpha
    · exact absurd (taken '(' inside) (by decide)
  · simp [hasScheme, alpha, List.dropWhile_append_of_pos taken, schemeChar]

/-- Substituting tokens keeps a scheme: every token comes after the `:`. -/
theorem substitute_scheme (plain : List Char → List Char) {text : List Char} (scheme : hasScheme text = true) :
    hasScheme (substitute plain text) = true := by
  obtain ⟨head, more, rfl, noParen, schemes⟩ := hasScheme_split scheme
  have split : Split (head ++ ':' :: more) (head.map .char ++ .char ':' :: tokenize more) :=
    (Split.chars_noParen noParen).append_cut (by decide) (.cons (by decide) (split_tokenize more))
  rw [substitute, Split.unique (split_tokenize _) split, render_append, render_chars]
  exact schemes _

/-! ## The framework section substituted -/

/-- A string with its tokens replaced by their plaintexts. -/
def substituteString (plain : List Char → List Char) (s : String) : String := String.mk (substitute plain s.data)

def Url.substitute (plain : List Char → List Char) (url : Url) : Url :=
  ⟨substituteString plain url.text, substitute_scheme plain url.scheme⟩

/-- The typed section with the tokens of its strings and URLs substituted. -/
def FrameworkConfig.substitute (plain : List Char → List Char) (fw : FrameworkConfig) : FrameworkConfig where
  app := { id := substituteString plain fw.app.id }
  adv := { backtrace := fw.adv.backtrace, salt := substituteString plain fw.adv.salt }
  confCenter := fw.confCenter.map fun center =>
    { kind := substituteString plain center.kind, url := substituteString plain center.url,
      format := center.format.map (substituteString plain) }
  cache := fw.cache.map fun cache => { url := cache.url.substitute plain }

/-- Substituting the written section is writing the substituted section. -/
theorem FrameworkConfig.toJson_substitute (plain : List Char → List Char) (fw : FrameworkConfig) :
    fw.toJson.substitute plain = (fw.substitute plain).toJson := by
  obtain ⟨app, adv, confCenter, cache⟩ := fw
  rcases confCenter with _ | ⟨kind, url, _ | format⟩ <;> rcases cache with _ | cache <;>
    rfl

theorem FrameworkConfig.toJson_WF (fw : FrameworkConfig) : fw.toJson.WF := by
  rcases fw with ⟨app, adv, _ | ⟨kind, url, _ | format⟩, _ | cache⟩ <;>
    simp [FrameworkConfig.toJson, AppConfig.toJson, AdvConfig.toJson, ConfCenterConfig.toJson,
      CacheModuleConfig.toJson, optionJson, Value.WF, fieldsWF]

theorem FrameworkConfig.toJson_keysFree (fw : FrameworkConfig) : fw.toJson.KeysFree := by
  rcases fw with ⟨app, adv, _ | ⟨kind, url, _ | format⟩, _ | cache⟩ <;>
    simp only [FrameworkConfig.toJson, AppConfig.toJson, AdvConfig.toJson, ConfCenterConfig.toJson,
      CacheModuleConfig.toJson, optionJson, Value.KeysFree, fieldsKeysFree] <;> decide

/-! ## The decryption branch -/

section
variable (caps : Capabilities) {workspace : List (String × Value)} {fw : FrameworkConfig}
  (saltLength : fw.adv.salt.utf8ByteSize = 16) (wf : (Value.object workspace).WF)
  (keysFree : (Value.object workspace).KeysFree) {plain : List Char → String}
  (decrypts : ∀ payload ∈ (Value.object workspace).payloads ++ fw.toJson.payloads,
    caps.decryptEcb (String.mk payload) fw.adv.salt = .ok (plain payload))
  (written : ∀ payload ∈ (Value.object workspace).payloads ++ fw.toJson.payloads, ∀ c ∈ (plain payload).data, Plain c)
include saltLength wf keysFree decrypts written

/-- Both texts decrypted and read back: the workspace and the typed section, each
with its tokens substituted. -/
theorem decryptConfig_substitutes :
    decryptConfig caps workspace fw = .ok ⟨fieldsSubstitute (fun payload => (plain payload).data) workspace,
      fw.substitute fun payload => (plain payload).data⟩ := by
  have substituted := (Value.object workspace).substitute_WF (fun payload => (plain payload).data) wf
  rw [decryptConfig, decryption_objToString caps.decryptEcb fw.adv.salt saltLength keysFree
      (fun payload member => decrypts payload (List.mem_append_left _ member))
      (fun payload member => written payload (List.mem_append_left _ member)),
    decryption_objToString caps.decryptEcb fw.adv.salt saltLength fw.toJson_keysFree
      (fun payload member => decrypts payload (List.mem_append_right _ member))
      (fun payload member => written payload (List.mem_append_right _ member))]
  show (do
      let cs ← strToObj fromStrMap (String.mk (Value.object (fieldsSubstitute _ workspace)).write)
      let fw ← strToObj (fun text => fromStr text >>= FrameworkConfig.fromJson) (String.mk (fw.toJson.substitute _).write)
      pure (⟨cs, fw⟩ : TardisConfig)) = _
  simp only [strToObj, fromStrMap_write substituted, FrameworkConfig.toJson_substitute,
    fromStr_write (FrameworkConfig.toJson_WF _), FrameworkConfig.fromJson_toJson, ok_bind]
  rfl

/-- A section typed with a salt of 16 bytes comes back with its tokens substituted,
after `RUST_BACKTRACE` is set from it. -/
theorem readConfig_typed {cache : ConfigValue} (read : readWorkspace cache = .ok workspace)
    (typed : readFrameworkAt cache = .ok fw) (process : Process) :
    (readConfig caps cache).run.run process =
      (.ok ⟨fieldsSubstitute (fun payload => (plain payload).data) workspace, fw.substitute fun payload => (plain payload).data⟩,
        process.setVar "RUST_BACKTRACE" (if fw.adv.backtrace then "1" else "0")) := by
  have salted : fw.adv.salt.isEmpty = false := by
    simp [String.isEmpty, String.endPos, saltLength]; decide
  simp only [readConfig, read, typed, liftConfig, pure_bind, salted, decryptConfig_substitutes caps saltLength wf keysFree decrypts written,
    liftOutcome]
  rfl

end

/-- A section that does not type ends the pass before anything is decrypted, and
before `RUST_BACKTRACE` is set. -/
theorem readConfig_untyped (caps : Capabilities) {cache : ConfigValue} {error : ConfigError}
    (failed : readFrameworkAt cache = .error error) (process : Process) :
    ∃ failure, (readConfig caps cache).run.run process = (.error failure, process) := by
  cases read : readWorkspace cache with
  | error first => exact ⟨_, by simp only [readConfig, read, liftConfig]; rfl⟩
  | ok workspace => exact ⟨_, by simp only [readConfig, read, failed, liftConfig]; rfl⟩

/-! ## `do_init` -/

/-- Past its remote part and its build, `do_init` goes on as `readConfig` of the
built tree. -/
theorem doInit_run {caps : Capabilities} {relativePath : Option String} {profile : String}
    {confCenter : Option (ConfCenterConfig × String)} {process after : Process} {remote : List (String × FileFormat)}
    {cache : ConfigValue} (fetched : (remoteSources caps profile confCenter).run.run process = (.ok remote, after))
    (built : build (passSources caps relativePath profile remote after.vars) = .ok cache) :
    (doInit caps relativePath profile confCenter).run.run process = (readConfig caps cache).run.run after := by
  simp only [doInit, ExceptT.run_bind, StateT.run_bind, fetched]
  change ((liftConfig (build (passSources caps relativePath profile remote after.vars)) >>= readConfig caps).run.run
    after) = _
  rw [built]
  rfl

/-- `conf-default` holds `fw` as given; every token decrypts to `plaintext`. -/
def frameworkWorld (fw : ConfigMap) (plaintext : String) : Capabilities where
  readFile _ := .ok [("fw", .table fw)]
  fetchConfUrls _ _ _ := .ok []
  get _ := .ok ⟨404, .ok ""⟩
  parse _ _ _ := .ok []
  decryptEcb _ _ := .ok plaintext
  localeInit _ := .ok ()

end Tardis.Config
