import SpotCapacity.Proofs.Label
import SpotCapacity.Proofs.Outcome
import SpotCapacity.Proofs.Text.Integer
import SpotCapacity.Settings.Loader

/-!
# Reading settings

What the texts of the settings mean: a relation between a text and a value for each setting
(`Setting.Reads`). A configuration is made of texts exactly when it holds the values that they are read as
(`Configuration.ofRaw_eq_ok_iff`); otherwise the fault is that of the first setting that cannot be read
(`Configuration.ofRaw_eq_error_iff`), and its message names that setting.
-/

namespace SpotCapacity

namespace Setting

/-- The settings whose texts may be refused, in the order in which they are read. -/
def validated : List Setting :=
  [.spotNodeLabel, .onDemandNodeLabel, .priorityThreshold, .housekeepingInterval, .buildWorkers,
   .rateLimit, .metricsPort, .logFormat]

/-- What a setting is read as. -/
def Value : Setting → Type
  | .spotNodeLabel | .onDemandNodeLabel => LabelRule
  | .priorityThreshold | .housekeepingInterval | .buildWorkers | .rateLimit | .metricsPort => Int
  | .runOnce => Bool
  | .logLevel => String
  | .logFormat => LogFormat

/-- The texts of each setting and the values that they stand for. -/
def Reads : (setting : Setting) → String → setting.Value → Prop
  | .spotNodeLabel, text, (rule : LabelRule) => LabelRule.Written text.toList rule
  | .onDemandNodeLabel, text, (rule : LabelRule) => LabelRule.Written text.toList rule
  | .priorityThreshold, text, (n : Int) =>
    Text.Denotes text.toList n ∧ -2147483648 ≤ n ∧ n ≤ 2147483647
  | .housekeepingInterval, text, (n : Int) => Text.Denotes text.toList n ∧ 1 ≤ n ∧ n ≤ 3600
  | .buildWorkers, text, (n : Int) => Text.Denotes text.toList n ∧ 1 ≤ n ∧ n ≤ 64
  | .rateLimit, text, (n : Int) => Text.Denotes text.toList n ∧ 1 ≤ n
  | .metricsPort, text, (n : Int) => Text.Denotes text.toList n ∧ 1 ≤ n ∧ n ≤ 65535
  | .runOnce, text, (flag : Bool) => flag = true ↔ RawValue.word text = "true"
  | .logLevel, text, (level : String) => level = String.ofList (Text.upper (Text.trim text.toList))
  | .logFormat, text, (format : LogFormat) => RawValue.word text = format.name

def Readable (setting : Setting) (text : String) : Prop := ∃ value, setting.Reads text value

/-- A message that begins with the name of a setting, perhaps after the word that it is invalid. -/
def Named (setting : Setting) (message : String) : Prop :=
  ∃ rest, message = "Invalid " ++ setting.name ++ ": " ++ rest ∨ message = setting.name ++ " " ++ rest

/-- Reads the text of one setting. -/
def check : (setting : Setting) → String → Except Fault setting.Value
  | .spotNodeLabel, text => (RawValue.text text).labelRule Setting.spotNodeLabel.name
  | .onDemandNodeLabel, text => (RawValue.text text).labelRule Setting.onDemandNodeLabel.name
  | .priorityThreshold, text => (RawValue.text text).priorityThreshold
  | .housekeepingInterval, text => (RawValue.text text).housekeepingInterval
  | .buildWorkers, text => (RawValue.text text).buildWorkers
  | .rateLimit, text => (RawValue.text text).rateLimit
  | .metricsPort, text => (RawValue.text text).port Setting.metricsPort.name
  | .runOnce, text => .ok (Text.lowerAscii (Text.trim text.toList) == "true".toList)
  | .logLevel, text => .ok (String.ofList (Text.upper (Text.trim text.toList)))
  | .logFormat, text => (RawValue.text text).logFormat

end Setting

namespace RawValue

variable {text name : String} {fault? : Int → Option SettingFault} {n : Int}

private theorem toInt_text_eq_ok_iff :
    (RawValue.text text).toInt name = .ok n ↔ Text.Denotes text.toList n := by
  rw [← Text.integer?_eq_some_iff, toInt]
  rcases Text.integer? text.toList with _ | read
  · exact ⟨nofun, nofun⟩
  · exact ⟨fun same => congrArg some (Except.ok.inj same), fun same => congrArg _ (Option.some.inj same)⟩

private theorem bounded_eq_ok_iff {raw : RawValue} :
    raw.bounded name fault? = .ok n ↔ raw.toInt name = .ok n ∧ fault? n = none := by
  rw [bounded, Outcome.bind_eq_ok_iff]
  constructor
  · rintro ⟨read, found, within⟩
    split at within
    · rename_i admitted
      cases within
      exact ⟨found, admitted⟩
    · obtain ⟨_, -, refused⟩ := Outcome.bind_eq_ok_iff.mp within
      cases refused
  · rintro ⟨found, admitted⟩
    refine ⟨n, found, ?_⟩
    rw [admitted]
    rfl

private theorem bounded_text_eq_ok_iff :
    (RawValue.text text).bounded name fault? = .ok n ↔
      Text.Denotes text.toList n ∧ fault? n = none := by
  rw [bounded_eq_ok_iff, toInt_text_eq_ok_iff]

/-- An accepted rate limit is positive. -/
theorem rateLimit_pos {raw : RawValue} (read : raw.rateLimit = .ok n) : 0 < n := by
  have within := (bounded_eq_ok_iff.mp read).2
  simp only [ite_eq_right_iff, reduceCtorEq, imp_false] at within
  omega

private theorem bounded_text_error {fault : Fault}
    (refused : (RawValue.text text).bounded name fault? = .error fault) :
    fault = .setting (.notInteger name text) ∨
      ∃ n reason, fault? n = some reason ∧ fault = .setting reason := by
  rw [bounded, Outcome.bind_eq_error_iff] at refused
  rcases refused with unread | ⟨n, read, beyond⟩
  · rw [toInt] at unread
    rcases read : Text.integer? text.toList with _ | n
    all_goals
      rw [read] at unread
      cases unread
    exact .inl rfl
  · split at beyond
    · cases beyond
    · rename_i reason found
      rw [integerText_of_short (toInt_text_eq_ok_iff.mp read).isWritable] at beyond
      cases beyond
      exact .inr ⟨n, reason, found, rfl⟩

private theorem labelRule_text_eq_ok_iff {rule : LabelRule} :
    (RawValue.text text).labelRule name = .ok rule ↔ LabelRule.Written text.toList rule := by
  rw [← LabelRule.parse_eq_ok_iff, labelRule]
  rcases LabelRule.parse text with fault | read
  · exact ⟨nofun, nofun⟩
  · simp only [Except.ok.injEq]

private theorem labelRule_text_error {fault : Fault}
    (refused : (RawValue.text text).labelRule name = .error fault) :
    ∃ reason, fault = .setting (.rule (some name) reason) := by
  rw [labelRule] at refused
  rcases read : LabelRule.parse text with reason | rule
  all_goals
    rw [read] at refused
    cases refused
  exact ⟨reason, rfl⟩

/-- The empty text is refused before it is compared with the names of the formats, and has none. -/
theorem logFormat_text_eq (text : String) :
    (RawValue.text text).logFormat =
      if word text = "json" then .ok .json
      else if word text = "text" then .ok .text
      else .error (.setting (.logFormat text)) := by
  rw [logFormat, isEmpty]
  by_cases empty : text = ""
  · subst empty
    rfl
  · rw [if_neg (by simpa using empty)]
    rfl

private theorem logFormat_text_eq_ok_iff {format : LogFormat} :
    (RawValue.text text).logFormat = .ok format ↔ word text = format.name := by
  rw [logFormat_text_eq]
  by_cases json : word text = "json"
  · rw [if_pos json, json]
    cases format <;> decide
  · rw [if_neg json]
    by_cases plain : word text = "text"
    · rw [if_pos plain, plain]
      cases format <;> decide
    · rw [if_neg plain]
      cases format with
      | json => exact ⟨nofun, fun named => absurd named json⟩
      | text => exact ⟨nofun, fun named => absurd named plain⟩

private theorem logFormat_text_error {fault : Fault}
    (refused : (RawValue.text text).logFormat = .error fault) : fault = .setting (.logFormat text) := by
  rw [logFormat_text_eq] at refused
  split_ifs at refused
  cases refused
  rfl

end RawValue

namespace Setting

/-- A text is accepted exactly with the value that the setting reads in it. -/
theorem check_eq_ok_iff {setting : Setting} {text : String} {value : setting.Value} :
    setting.check text = .ok value ↔ setting.Reads text value := by
  cases setting with
  | spotNodeLabel => exact RawValue.labelRule_text_eq_ok_iff
  | onDemandNodeLabel => exact RawValue.labelRule_text_eq_ok_iff
  | priorityThreshold =>
      refine RawValue.bounded_text_eq_ok_iff.trans (and_congr_right fun _ => ?_)
      simp only [ite_eq_right_iff, reduceCtorEq, imp_false]
      omega
  | housekeepingInterval =>
      refine RawValue.bounded_text_eq_ok_iff.trans (and_congr_right fun _ => ?_)
      split_ifs <;> simp only [false_iff, true_iff] <;> omega
  | buildWorkers =>
      refine RawValue.bounded_text_eq_ok_iff.trans (and_congr_right fun _ => ?_)
      simp only [ite_eq_right_iff, reduceCtorEq, imp_false]
      omega
  | rateLimit =>
      refine RawValue.bounded_text_eq_ok_iff.trans (and_congr_right fun _ => ?_)
      simp only [ite_eq_right_iff, reduceCtorEq, imp_false]
      omega
  | metricsPort =>
      refine RawValue.bounded_text_eq_ok_iff.trans (and_congr_right fun _ => ?_)
      simp only [ite_eq_right_iff, reduceCtorEq, imp_false]
      omega
  | runOnce =>
      have word : Text.lowerAscii (Text.trim text.toList) = "true".toList ↔
          RawValue.word text = "true" :=
        ⟨fun same => by rw [RawValue.word, same, String.ofList_toList],
          fun same => by rw [← same, RawValue.word, String.toList_ofList]⟩
      constructor
      · intro same
        cases same
        exact beq_iff_eq.trans word
      · intro reads
        exact congrArg Except.ok (Bool.eq_iff_iff.mpr ((beq_iff_eq.trans word).trans reads.symm))
  | logLevel => exact ⟨fun same => (Except.ok.inj same).symm, fun same => congrArg _ same.symm⟩
  | logFormat => exact RawValue.logFormat_text_eq_ok_iff

/-- A text is readable if a setting accepts it. -/
theorem readable_iff {setting : Setting} {text : String} :
    setting.Readable text ↔ ∃ value, setting.check text = .ok value :=
  exists_congr fun _ => check_eq_ok_iff.symm

/-- Every setting has a valid default. -/
theorem readable_default (setting : Setting) : setting.Readable setting.default := by
  rw [readable_iff]
  cases setting <;> exact ⟨_, rfl⟩

private theorem named_range (setting : Setting) (rest : String) (n : Int) :
    setting.Named (setting.name ++ " " ++ rest ++ toString n) :=
  ⟨rest ++ toString n, .inr String.append_assoc⟩

private theorem named_bounded {setting : Setting} {text : String} {fault? : Int → Option SettingFault}
    {fault : Fault} (beyond : ∀ n reason, fault? n = some reason → setting.Named reason.message)
    (refused : (RawValue.text text).bounded setting.name fault? = .error fault) :
    ∃ reason : SettingFault, fault = .setting reason ∧ setting.Named reason.message := by
  obtain rfl | ⟨n, reason, found, rfl⟩ := RawValue.bounded_text_error refused
  · exact ⟨_, rfl, text ++ ". Must be an integer", .inl String.append_assoc⟩
  · exact ⟨reason, rfl, beyond n reason found⟩

private theorem named_labelRule {setting : Setting} {text : String} {fault : Fault}
    (refused : (RawValue.text text).labelRule setting.name = .error fault) :
    ∃ reason : SettingFault, fault = .setting reason ∧ setting.Named reason.message := by
  obtain ⟨reason, rfl⟩ := RawValue.labelRule_text_error refused
  exact ⟨_, rfl, reason.message, .inl rfl⟩

/-- A text that is refused is refused with a fault that names the setting. -/
theorem check_error {setting : Setting} {text : String} {fault : Fault}
    (refused : setting.check text = .error fault) :
    ∃ reason : SettingFault, fault = .setting reason ∧ setting.Named reason.message := by
  cases setting with
  | spotNodeLabel => exact named_labelRule refused
  | onDemandNodeLabel => exact named_labelRule refused
  | priorityThreshold =>
      refine named_bounded (fun n reason beyond => ?_) refused
      split_ifs at beyond
      cases beyond
      exact named_range .priorityThreshold "out of range: " n
  | housekeepingInterval =>
      refine named_bounded (fun n reason beyond => ?_) refused
      split_ifs at beyond
      · cases beyond
        exact named_range .housekeepingInterval "must be at least 1 second, got " n
      · cases beyond
        exact named_range .housekeepingInterval "must be at most 3600 seconds (1 hour), got " n
  | buildWorkers =>
      refine named_bounded (fun n reason beyond => ?_) refused
      split_ifs at beyond
      cases beyond
      exact named_range .buildWorkers "must be between 1 and 64, got " n
  | rateLimit =>
      refine named_bounded (fun n reason beyond => ?_) refused
      split_ifs at beyond
      cases beyond
      exact named_range .rateLimit "must be at least 1, got " n
  | metricsPort =>
      refine named_bounded (fun n reason beyond => ?_) refused
      split_ifs at beyond
      cases beyond
      exact named_range .metricsPort "must be between 1 and 65535, got " n
  | runOnce => cases refused
  | logLevel => cases refused
  | logFormat =>
      cases RawValue.logFormat_text_error refused
      exact ⟨_, rfl, text ++ ". Must be 'json' or 'text'", .inl String.append_assoc⟩

end Setting

namespace Configuration

/-- The value of a setting in a configuration. -/
def value (config : Configuration) : (setting : Setting) → setting.Value
  | .spotNodeLabel => config.spotNodeLabel
  | .onDemandNodeLabel => config.onDemandNodeLabel
  | .priorityThreshold => config.priorityThreshold
  | .housekeepingInterval => config.housekeepingInterval
  | .buildWorkers => config.buildWorkers
  | .rateLimit => config.rateLimit
  | .metricsPort => config.metricsPort
  | .runOnce => config.runOnce
  | .logLevel => config.logLevel
  | .logFormat => config.logFormat

variable {text : Setting → String}

/-- A configuration is read when each of its settings is. -/
theorem ofRaw_eq_ok_iff {config : Configuration} :
    (ofRaw fun setting => some (text setting)) = .ok config ↔
      ∀ setting : Setting, setting.Reads (text setting) (config.value setting) := by
  simp only [← Setting.check_eq_ok_iff, ofRaw, Outcome.bind_eq_ok_iff]
  constructor
  · rintro ⟨spot, spotRead, onDemand, onDemandRead, threshold, thresholdRead, interval, intervalRead,
      workers, workersRead, limit, limitRead, port, portRead, once, onceRead, level, levelRead,
      format, formatRead, same⟩
    cases same
    cases onceRead
    cases levelRead
    intro setting
    cases setting with
    | spotNodeLabel => exact spotRead
    | onDemandNodeLabel => exact onDemandRead
    | priorityThreshold => exact thresholdRead
    | housekeepingInterval => exact intervalRead
    | buildWorkers => exact workersRead
    | rateLimit => exact limitRead
    | metricsPort => exact portRead
    | runOnce => rfl
    | logLevel => rfl
    | logFormat => exact formatRead
  · intro each
    refine ⟨_, each .spotNodeLabel, _, each .onDemandNodeLabel, _, each .priorityThreshold, _,
      each .housekeepingInterval, _, each .buildWorkers, _, each .rateLimit, _, each .metricsPort, _, rfl,
      _, rfl, _, each .logFormat, ?_⟩
    have once := Except.ok.inj (each .runOnce)
    have level := Except.ok.inj (each .logLevel)
    cases config
    cases once
    cases level
    rfl

/-- Every configuration that is read admits a call. -/
theorem rateLimit_pos {raw : Setting → Option String} {config : Configuration}
    (read : ofRaw raw = .ok config) : 0 < config.rateLimit := by
  simp only [ofRaw, Outcome.bind_eq_ok_iff] at read
  obtain ⟨spot, -, onDemand, -, threshold, -, interval, -, workers, -, limit, limitRead, port, -, once, -,
    level, -, format, -, same⟩ := read
  cases same
  exact RawValue.rateLimit_pos limitRead

/-- Whether the text of a setting can be read. -/
private def admitted (text : Setting → String) (setting : Setting) : Except Fault Unit :=
  (setting.check (text setting)).map fun _ => ()

private theorem admitted_ok_iff {setting : Setting} :
    (∃ value, admitted text setting = .ok value) ↔ setting.Readable (text setting) := by
  simp only [admitted, Outcome.map_eq_ok_iff, Setting.readable_iff, and_true, exists_const]

private theorem admitted_error_iff {setting : Setting} {fault : Fault} :
    admitted text setting = .error fault ↔ setting.check (text setting) = .error fault := by
  rw [admitted, Outcome.map_eq_error_iff]

/-- One more part of a reading that goes on with its value. -/
private theorem discard_bind {α : Type} {first : Except Fault α} {next : α → Except Fault Configuration}
    {part : Setting → Except Fault Unit} {setting : Setting} {rest : List Setting}
    (here : (first.map fun _ => ()) = part setting)
    (later : ∀ value, ((next value).map fun _ => ()) = (rest.mapM part).map fun _ => ()) :
    ((first >>= next).map fun _ => ()) = ((setting :: rest).mapM part).map fun _ => () := by
  rw [List.mapM_cons, ← here]
  rcases first with fault | value
  · rfl
  · refine (later value).trans ?_
    change _ = ((rest.mapM part >>= _).map fun _ => ())
    cases rest.mapM part <;> rfl

private theorem ofRaw_discard (text : Setting → String) :
    ((ofRaw fun setting => some (text setting)).map fun _ => ()) =
      (Setting.validated.mapM (admitted text)).map fun _ => () := by
  refine discard_bind rfl fun _ => discard_bind rfl fun _ => discard_bind rfl fun _ =>
    discard_bind rfl fun _ => discard_bind rfl fun _ => discard_bind rfl fun _ =>
      discard_bind rfl fun _ => ?_
  -- the flag and the level are read from any text, so that the format comes next
  simp only [trimmed, Outcome.ok_bind]
  exact discard_bind rfl fun _ => rfl

/-- A reading that fails does so with the fault of the first setting that cannot be read. -/
theorem ofRaw_eq_error_iff {fault : Fault} :
    (ofRaw fun setting => some (text setting)) = .error fault ↔
      ∃ before setting after, Setting.validated = before ++ setting :: after ∧
        (∀ other ∈ before, other.Readable (text other)) ∧
        setting.check (text setting) = .error fault := by
  rw [← Outcome.map_eq_error_iff, ofRaw_discard, Outcome.map_eq_error_iff, Outcome.mapM_eq_error_iff]
  simp only [admitted_ok_iff, admitted_error_iff]

end Configuration

end SpotCapacity
