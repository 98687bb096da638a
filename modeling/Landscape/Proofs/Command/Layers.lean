import Landscape.Command.Run
import Landscape.Proofs.Detection.Thresholds
import Landscape.Proofs.Interchange.Saving
import Landscape.Proofs.Text.Encoding

/-!
# Thresholds in layers

The environment gives a threshold, a configuration file may give another one, and an option of the
command line a third. The last layer that says something counts, but what an earlier one says is
checked as well: no layer hides what is wrong with another one. Fields of the file that no threshold
is called by are not looked at.
-/

namespace Landscape

namespace ConfigValue

/-- The integer of a value that is one. -/
def integer? : ConfigValue → Option Int
  | .integer n => some n
  | .truth _ | .other _ => none

/-- The truth value of a value that is one. -/
def truth? : ConfigValue → Option Bool
  | .truth b => some b
  | .integer _ | .other _ => none

end ConfigValue

namespace ConfigDocument

/-- A field of a document, as a configuration sees it. -/
def field? (document : ConfigDocument) (key : Text) : Option ConfigValue :=
  match document with
  | .json d => (d.get? key).map ConfigValue.ofJson
  | .yaml d => (d.field? key).map ofYaml

theorem overrides_eq (document : ConfigDocument) :
    document.overrides = Thresholds.overridesBy document.field? := by
  cases document <;> rfl

/-- A record in a file that is not called a YAML text is its document. -/
theorem load_of_record {files : Files} {path : Text} {bytes : List UInt8}
    {fields : List (Text × Json)} (hread : files.read (Path.normal path) = .ok bytes)
    (hname : isYamlPath (Path.normal path) = false)
    (hbytes : Json.ofBytes bytes = .ok (.record fields)) :
    load files path = .ok (.json (.record fields)) := by
  have hdocument : ofBytes (Path.normal path) bytes = .ok (.json (.record fields)) := by
    unfold ofBytes
    rw [hname, hbytes]
    rfl
  unfold load
  dsimp only
  rw [hread, ok_bind, hdocument]
  rfl

end ConfigDocument

namespace Thresholds

variable {key : String} {value : Option ConfigValue} {n m : Int} {b c : Bool} {t t' : Thresholds}
  {o : Overrides}

/-- A field for an integer is absent or holds one. -/
theorem integerField_eq_ok_iff :
    integerField key value m = .ok n ↔ value = none ∧ n = m ∨ value = some (.integer n) := by
  rcases value with - | v
  · simp [integerField, eq_comm]
  · cases v with
    | integer k => simp [integerField]
    | truth b => simp [integerField, ConfigValue.spelling]
    | other spelling => cases spelling <;> simp [integerField, ConfigValue.spelling]

/-- A field for a truth value is absent or holds one. -/
theorem booleanField_eq_ok_iff :
    booleanField key value c = .ok b ↔ value = none ∧ b = c ∨ value = some (.truth b) := by
  rcases value with - | v
  · simp [booleanField, eq_comm]
  · cases v with
    | integer n =>
      simp only [booleanField, ConfigValue.spelling]
      cases Number.spell n <;> simp
    | truth a => simp [booleanField]
    | other spelling => cases spelling <;> simp [booleanField, ConfigValue.spelling]

/-- An integer is a limit exactly when it is at least one. -/
theorem exists_limit_iff (key : String) : (∃ l, Limit.ofJson key (.int n) = .ok l) ↔ 1 ≤ n := by
  simp only [limit_eq_ok_iff]
  rw [← Int.cast_le (R := Rat), Int.cast_one]
  constructor
  · rintro ⟨_, h, -⟩
    exact h
  · intro h
    exact ⟨_, h, rfl⟩

/-- A configuration is accepted exactly when both thresholds are at least one. -/
theorem exists_check_iff :
    (∃ limits, t.check = .ok limits) ↔ 1 ≤ t.bottleneck ∧ 1 ≤ t.overCoupling := by
  simp only [check, bind_eq_ok_iff, pure_eq_ok, Except.ok.injEq]
  rw [← exists_limit_iff bottleneckKey, ← exists_limit_iff overCouplingKey]
  constructor
  · rintro ⟨_, l, hl, l', hl', -⟩
    exact ⟨⟨l, hl⟩, l', hl'⟩
  · rintro ⟨⟨l, hl⟩, l', hl'⟩
    exact ⟨_, l, hl, l', hl', rfl⟩

/-- A document overrides a configuration field by field, and the outcome has to be accepted. -/
theorem override_eq_ok_iff : t.override o = .ok t' ↔
    (integerField bottleneckKey o.bottleneck t.bottleneck = .ok t'.bottleneck ∧
      1 ≤ t'.bottleneck) ∧
    (integerField overCouplingKey o.overCoupling t.overCoupling = .ok t'.overCoupling ∧
      1 ≤ t'.overCoupling) ∧
    booleanField isolatedKey o.isolated t.isolated = .ok t'.isolated := by
  simp only [override, bind_eq_ok_iff, pure_eq_ok, Except.ok.injEq]
  constructor
  · rintro ⟨b, hb, c, hc, i, hi, limits, hlimits, rfl⟩
    obtain ⟨hb1, hc1⟩ := exists_check_iff.mp ⟨limits, hlimits⟩
    exact ⟨⟨hb, hb1⟩, ⟨hc, hc1⟩, hi⟩
  · rintro ⟨⟨hb, hb1⟩, ⟨hc, hc1⟩, hi⟩
    obtain ⟨limits, hlimits⟩ := exists_check_iff.mpr ⟨hb1, hc1⟩
    exact ⟨_, hb, _, hc, _, hi, limits, hlimits, rfl⟩

/-- A document without fields overrides nothing. -/
theorem override_nothing (h : ∃ limits, t.check = .ok limits) :
    t.override (overridesBy fun _ => none) = .ok t := by
  obtain ⟨hb, hc⟩ := exists_check_iff.mp h
  exact override_eq_ok_iff.mpr ⟨⟨rfl, hb⟩, ⟨rfl, hc⟩, rfl⟩

end Thresholds

namespace Command

open Thresholds

/-- What says how large a threshold is, the last word first. -/
structure ThresholdLayers where
  option : Option (Given Int)
  file : Option ConfigValue
  environment : Int

namespace ThresholdLayers

/-- The threshold of the first layer that says something. -/
def value (l : ThresholdLayers) : Int :=
  ((l.option.bind Given.value?).or (l.file.bind ConfigValue.integer?)).getD l.environment

/-- A layer says something that is not an integer of at least one. -/
inductive Refused (l : ThresholdLayers) : Prop
  | environment (h : l.environment < 1)
  | file {value : ConfigValue} (hvalue : l.file = some value)
      (h : ∀ n, value = .integer n → n < 1)
  | option {given : Given Int} (hgiven : l.option = some given)
      (h : ∀ n, given = .value n → n < 1)

variable {l : ThresholdLayers} {key : String} {n m : Int}

/-- No layer is refused when each one that says something says an integer of at least one. -/
theorem not_refused_iff : ¬l.Refused ↔ 1 ≤ l.environment ∧
    (∀ value, l.file = some value → ∃ n, value = .integer n ∧ 1 ≤ n) ∧
    ∀ given, l.option = some given → ∃ n, given = .value n ∧ 1 ≤ n := by
  constructor
  · intro haccepted
    refine ⟨Int.not_lt.mp fun h => haccepted (.environment h), fun value hvalue => ?_,
      fun given hgiven => ?_⟩
    · by_contra hno
      exact haccepted (.file hvalue fun n hn => Int.not_le.mp fun hle => hno ⟨n, hn, hle⟩)
    · by_contra hno
      exact haccepted (.option hgiven fun n hn => Int.not_le.mp fun hle => hno ⟨n, hn, hle⟩)
  · rintro ⟨henvironment, hfile, hoption⟩ (h | ⟨hvalue, h⟩ | ⟨hgiven, h⟩)
    · exact absurd henvironment (Int.not_le.mpr h)
    · obtain ⟨n, hn, hle⟩ := hfile _ hvalue
      exact absurd hle (Int.not_le.mpr (h n hn))
    · obtain ⟨n, hn, hle⟩ := hoption _ hgiven
      exact absurd hle (Int.not_le.mpr (h n hn))

/-- If no layer is refused, the threshold is at least one. -/
theorem one_le_value (h : ¬l.Refused) : 1 ≤ l.value := by
  obtain ⟨henvironment, hfile, hoption⟩ := not_refused_iff.mp h
  unfold value
  cases hgiven : l.option with
  | some given =>
    obtain ⟨n, rfl, hn⟩ := hoption given hgiven
    exact hn
  | none =>
    cases hvalue : l.file with
    | some value =>
      obtain ⟨n, rfl, hn⟩ := hfile value hvalue
      exact hn
    | none => exact henvironment

/-- A file leaves an accepted threshold as it is or gives an accepted one. -/
theorem integerField_accepted_iff (key : String) {file : Option ConfigValue} (hm : 1 ≤ m) :
    integerField key file m = .ok n ∧ 1 ≤ n ↔
      (∀ value, file = some value → ∃ n, value = .integer n ∧ 1 ≤ n) ∧
        n = (file.bind ConfigValue.integer?).getD m := by
  rw [integerField_eq_ok_iff]
  rcases file with - | v
  · simp +contextual [hm]
  · cases v with
    | integer k => simp +contextual [ConfigValue.integer?, eq_comm, and_comm]
    | truth b => simp
    | other spelling => simp

/-- An option leaves an accepted threshold as it is or gives an accepted one. -/
theorem overrideThreshold_eq_ok_iff {option : Option (Given Int)} (hm : 1 ≤ m) :
    overrideThreshold key option m = .ok n ↔
      (∀ given, option = some given → ∃ n, given = .value n ∧ 1 ≤ n) ∧
        n = (option.bind Given.value?).getD m := by
  have hlimit {k : Int} : (∃ l, Limit.ofJson key (.int k) = .ok l ∧ k = n) ↔ 1 ≤ k ∧ n = k := by
    rw [← exists_limit_iff key]
    simp [eq_comm]
  unfold overrideThreshold
  rcases option with - | g
  · simp only [pure_eq_ok, ok_bind, bind_eq_ok_iff, Except.ok.injEq, hlimit]
    simp [hm]
  · cases g with
    | value k =>
      simp only [pure_eq_ok, ok_bind, bind_eq_ok_iff, Except.ok.injEq, hlimit]
      simp [Given.value?]
    | nothing => simp

/-- The layers lead to a threshold exactly when none of them is refused, and then to that of the
first one that says something. -/
theorem resolves_iff (key key' : String) :
    (1 ≤ l.environment ∧ ∃ m, (integerField key l.file l.environment = .ok m ∧ 1 ≤ m) ∧
      overrideThreshold key' l.option m = .ok n) ↔ ¬l.Refused ∧ n = l.value := by
  rw [not_refused_iff]
  have hvalue : l.value = (l.option.bind Given.value?).getD
      ((l.file.bind ConfigValue.integer?).getD l.environment) := by
    unfold value
    cases l.option.bind Given.value? <;> rfl
  constructor
  · rintro ⟨henvironment, m, hread, hgiven⟩
    obtain ⟨hoption, rfl⟩ := (overrideThreshold_eq_ok_iff hread.2).mp hgiven
    obtain ⟨hfile, rfl⟩ := (integerField_accepted_iff key henvironment).mp hread
    exact ⟨⟨henvironment, hfile, hoption⟩, hvalue.symm⟩
  · rintro ⟨⟨henvironment, hfile, hoption⟩, rfl⟩
    have hread := (integerField_accepted_iff key henvironment).mpr ⟨hfile, rfl⟩
    exact ⟨henvironment, _, hread, (overrideThreshold_eq_ok_iff hread.2).mpr ⟨hoption, hvalue⟩⟩

end ThresholdLayers

variable {o : Options} {s : Settings} {files files' : Files} {t : Thresholds}
  {document document' : Option ConfigDocument}

/-- The configuration file of a run, if it is asked for one. -/
def configFile (o : Options) (files : Files) : Except Error (Option ConfigDocument) :=
  match givenPath o.config with
  | none => .ok none
  | some path => some <$> ConfigDocument.load files path

/-- A field of the configuration file, if there is one. -/
def fileField? (document : Option ConfigDocument) (key : Text) : Option ConfigValue :=
  document.bind (·.field? key)

/-- The layers of the first threshold. -/
def bottleneckLayers (o : Options) (s : Settings) (document : Option ConfigDocument) :
    ThresholdLayers :=
  ⟨o.bottleneck, fileField? document bottleneckKey, s.thresholds.bottleneck⟩

/-- The layers of the second threshold. -/
def overCouplingLayers (o : Options) (s : Settings) (document : Option ConfigDocument) :
    ThresholdLayers :=
  ⟨o.overCoupling, fileField? document overCouplingKey, s.thresholds.overCoupling⟩

/-- The thresholds of the environment are checked; the configuration file overrides them, if only by
nothing, and then the options do. -/
theorem resolveThresholds_eq (h : configFile o files = .ok document) :
    resolveThresholds o s files = do
      let _ ← s.thresholds.check
      let t ← s.thresholds.override (overridesBy (fileField? document))
      let bottleneck ← overrideThreshold bottleneckKey o.bottleneck t.bottleneck
      let overCoupling ← overrideThreshold overCouplingKey o.overCoupling t.overCoupling
      return { bottleneck, overCoupling, isolated := t.isolated && !o.noIsolated } := by
  unfold resolveThresholds
  unfold configFile at h
  cases hcheck : s.thresholds.check with
  | error e => rfl
  | ok limits =>
    cases hpath : givenPath o.config with
    | none =>
      rw [hpath] at h
      obtain rfl := Except.ok.inj h
      have hnothing : s.thresholds.override (overridesBy (fileField? none)) = .ok s.thresholds :=
        override_nothing ⟨limits, hcheck⟩
      rw [hnothing]
      rfl
    | some path =>
      rw [hpath] at h
      dsimp only at h ⊢
      cases hload : ConfigDocument.load files path with
      | error e => simp [hload] at h
      | ok d =>
        simp only [hload, map_ok, Except.ok.injEq] at h
        subst h
        simp only [ok_bind, ConfigDocument.overrides_eq]
        rfl

/-- Whether isolated elements are reported: not if an option says so, else as the configuration file
has it, else as the environment has it. -/
def reportsIsolated (o : Options) (s : Settings) (document : Option ConfigDocument) : Bool :=
  !o.noIsolated &&
    ((fileField? document isolatedKey).bind ConfigValue.truth?).getD s.thresholds.isolated

/-- The configuration file has a choice to report isolated elements that is no truth value. -/
def MischoosesIsolated (document : Option ConfigDocument) : Prop :=
  ∃ value, fileField? document isolatedKey = some value ∧ ∀ b, value ≠ .truth b

/-- A choice of the file is read exactly when it is a truth value. -/
theorem exists_booleanField_iff {b : Bool} :
    (∃ c, booleanField isolatedKey (fileField? document isolatedKey) s.thresholds.isolated = .ok c ∧
      b = (c && !o.noIsolated)) ↔
    ¬MischoosesIsolated document ∧ b = reportsIsolated o s document := by
  simp only [booleanField_eq_ok_iff, MischoosesIsolated, reportsIsolated]
  generalize fileField? document isolatedKey = field
  rcases field with - | v
  · simp [Bool.and_comm]
  · cases v <;> simp [ConfigValue.truth?, Bool.and_comm]

/-- Thresholds are resolved exactly when no layer is refused, and each is that of its last layer. -/
theorem resolveThresholds_eq_ok_iff (h : configFile o files = .ok document) :
    resolveThresholds o s files = .ok t ↔
      (¬(bottleneckLayers o s document).Refused ∧
        t.bottleneck = (bottleneckLayers o s document).value) ∧
      (¬(overCouplingLayers o s document).Refused ∧
        t.overCoupling = (overCouplingLayers o s document).value) ∧
      ¬MischoosesIsolated document ∧ t.isolated = reportsIsolated o s document := by
  rw [resolveThresholds_eq h, ← ThresholdLayers.resolves_iff bottleneckKey bottleneckKey,
    ← ThresholdLayers.resolves_iff overCouplingKey overCouplingKey, ← exists_booleanField_iff]
  simp only [bind_eq_ok_iff, pure_eq_ok, Except.ok.injEq, override_eq_ok_iff]
  constructor
  · rintro ⟨limits, hlimits, t', ⟨hb, hc, hi⟩, b, hb', c, hc', rfl⟩
    obtain ⟨hb1, hc1⟩ := exists_check_iff.mp ⟨limits, hlimits⟩
    exact ⟨⟨hb1, _, hb, hb'⟩, ⟨hc1, _, hc, hc'⟩, _, hi, rfl⟩
  · rintro ⟨⟨hb1, b, hb, hb'⟩, ⟨hc1, c, hc, hc'⟩, i, hi, hisolated⟩
    obtain ⟨limits, hlimits⟩ := exists_check_iff.mpr ⟨hb1, hc1⟩
    exact ⟨limits, hlimits, ⟨b, c, i⟩, ⟨hb, hc, hi⟩, _, hb', _, hc', by rw [← hisolated]⟩

/-- Only the fields that thresholds are called by count. -/
theorem resolveThresholds_congr (h : configFile o files = .ok document)
    (h' : configFile o files' = .ok document')
    (hfields : ∀ key ∈ [bottleneckKey, overCouplingKey, isolatedKey],
      fileField? document' key = fileField? document key) :
    resolveThresholds o s files' = resolveThresholds o s files := by
  have hoverrides : overridesBy (fileField? document') = overridesBy (fileField? document) := by
    simp only [List.forall_mem_cons] at hfields
    obtain ⟨hbottleneck, hoverCoupling, hisolated, -⟩ := hfields
    simp only [overridesBy] at hbottleneck hoverCoupling hisolated ⊢
    rw [hbottleneck, hoverCoupling, hisolated]
  rw [resolveThresholds_eq h, resolveThresholds_eq h', hoverrides]

/-- Thresholds are resolved unless a layer of one of them is refused or the file chooses isolated
elements by something that is no truth value. Each is then that of the first layer that says
something, what comes out is accepted, and fields of the file that no threshold is called by do not
matter. -/
theorem resolveThresholds_in_layers (h : configFile o files = .ok document) :
    ((∃ e, resolveThresholds o s files = .error e) ↔
      (bottleneckLayers o s document).Refused ∨ (overCouplingLayers o s document).Refused ∨
        MischoosesIsolated document) ∧
    (∀ t, resolveThresholds o s files = .ok t →
      t.bottleneck = (bottleneckLayers o s document).value ∧
        t.overCoupling = (overCouplingLayers o s document).value ∧
        t.isolated = reportsIsolated o s document ∧ ∃ limits, t.check = .ok limits) ∧
    ∀ files' document', configFile o files' = .ok document' →
      (∀ key ∈ [bottleneckKey, overCouplingKey, isolatedKey],
        fileField? document' key = fileField? document key) →
      resolveThresholds o s files' = resolveThresholds o s files := by
  refine ⟨?_, fun t ht => ?_, fun files' document' h' => resolveThresholds_congr h h'⟩
  · constructor
    · rintro ⟨e, he⟩
      by_contra haccepted
      simp only [not_or] at haccepted
      obtain ⟨hbottleneck, hoverCoupling, hisolated⟩ := haccepted
      have hok := (resolveThresholds_eq_ok_iff (t := ⟨_, _, _⟩) h).mpr
        ⟨⟨hbottleneck, rfl⟩, ⟨hoverCoupling, rfl⟩, hisolated, rfl⟩
      exact nomatch he.symm.trans hok
    · intro hrefused
      cases hresolved : resolveThresholds o s files with
      | error e => exact ⟨e, rfl⟩
      | ok t =>
        obtain ⟨⟨hbottleneck, -⟩, ⟨hoverCoupling, -⟩, hisolated, -⟩ :=
          (resolveThresholds_eq_ok_iff h).mp hresolved
        rcases hrefused with hrefused | hrefused | hrefused
        · exact absurd hrefused hbottleneck
        · exact absurd hrefused hoverCoupling
        · exact absurd hrefused hisolated
  · obtain ⟨⟨haccepted, hbottleneck⟩, ⟨haccepted', hoverCoupling⟩, -, hisolated⟩ :=
      (resolveThresholds_eq_ok_iff h).mp ht
    have hlimits : ∃ limits, t.check = .ok limits := by
      rw [exists_check_iff, hbottleneck, hoverCoupling]
      exact ⟨ThresholdLayers.one_le_value haccepted, ThresholdLayers.one_le_value haccepted'⟩
    exact ⟨hbottleneck, hoverCoupling, hisolated, hlimits⟩

/-- An option says one threshold, a file the other one, and both say more than the environment. -/
theorem resolveThresholds_in_layers_of_option_and_file :
    let d : Json := .record [("over_coupling_threshold", .int 3), ("colour", .text "red")]
    let bytes := (Json.print .oneLine d).toList.flatMap String.utf8EncodeChar
    let files : Files := { contents := [(["t.json"], bytes)] }
    let o : Options :=
      { config := some "t.json", bottleneck := some (.value 9), noIsolated := true }
    let s : Settings := { thresholds := ⟨4, 6, true⟩ }
    configFile o files = .ok (some (.json d)) ∧ resolveThresholds o s files = .ok ⟨9, 3, false⟩ ∧
      ∃ limits, Thresholds.check ⟨9, 3, false⟩ = .ok limits := by
  intro d bytes files o s
  have hthree : (3 : Int).natAbs < 10 ^ Number.maxDigits :=
    Nat.lt_of_lt_of_le (by decide : 3 < 10 ^ 1) (Nat.pow_le_pow_right (by decide) (by decide))
  have hlegible : d.Legible := by
    refine .record (by decide) ?_ ?_
    · rintro f (- | ⟨-, - | ⟨-, ⟨⟩⟩⟩)
      · exact Json.isJoined_ofString _
      · exact Json.isJoined_ofString _
    · rintro f (- | ⟨-, - | ⟨-, ⟨⟩⟩⟩)
      · exact .scalar (s := .int 3) hthree
      · exact .scalar (s := .text "red") (Json.isJoined_ofString _)
  have hencode : Text.encodeUtf8 (Text.ofString (Json.print .oneLine d)) = .ok bytes :=
    Text.encodeUtf8_ofChars
  have hfile : configFile o files = .ok (some (.json d)) := by
    rcases Json.ofBytes_print .oneLine hlegible hencode with ⟨-, hbytes⟩ | ⟨hnesting, -⟩
    · change some <$> ConfigDocument.load files "t.json" = _
      rw [ConfigDocument.load_of_record rfl rfl hbytes]
      rfl
    · exact absurd hnesting (by decide)
  obtain ⟨hrefused, hresolved, -⟩ := resolveThresholds_in_layers (s := s) hfile
  have haccepted : ¬∃ e, resolveThresholds o s files = .error e := by
    rw [hrefused]
    rintro (h | h | ⟨value, hvalue, -⟩)
    · rcases h with h | ⟨hvalue, -⟩ | ⟨⟨⟩, h⟩
      · exact absurd h (by decide)
      · exact nomatch hvalue
      · exact absurd (h 9 rfl) (by decide)
    · rcases h with h | ⟨⟨⟩, h⟩ | ⟨hgiven, -⟩
      · exact absurd h (by decide)
      · exact absurd (h 3 rfl) (by decide)
      · exact nomatch hgiven
    · exact nomatch hvalue
  cases ht : resolveThresholds o s files with
  | error e => exact absurd ⟨e, ht⟩ haccepted
  | ok t =>
    obtain ⟨hbottleneck, hoverCoupling, hisolated, hlimits⟩ := hresolved t ht
    have ht' : t = ⟨9, 3, false⟩ := by
      obtain ⟨bottleneck, overCoupling, isolated⟩ := t
      rw [Thresholds.mk.injEq]
      exact ⟨hbottleneck, hoverCoupling, hisolated⟩
    exact ⟨hfile, congrArg _ ht', ht' ▸ hlimits⟩

end Command

end Landscape
