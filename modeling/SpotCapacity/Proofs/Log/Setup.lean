import SpotCapacity.Log.Root
import SpotCapacity.Proofs.Settings.Loading
import SpotCapacity.Proofs.Text.UpperCase

/-!
# Setups of the root logger

A level is looked up by its name, which is its text in capitals. A name that is not known stands for INFO, but
the standard formats have names of the same kind, and a setup that finds one of them is refused
(`RootLogger.setup_eq`). A setup that is not refused replaces whatever root logger there is, and one that is
refused leaves it alone, so that the root logger is always that of the last setup that was not
(`RootLogger.after_eq`).
-/

namespace SpotCapacity

/-- A text in capitals is a name as it stands. -/
theorem Setting.capitals_upper (text : List Char) :
    capitals (String.ofList (Text.upper text)) = String.ofList (Text.upper text) := by
  rw [capitals, String.toList_ofList, Text.upper_upper]

/-- What a setup of logging is asked for. -/
structure LogSetup where
  level : String
  format : LogFormat
  extra : List (String × Json)

namespace RootLogger

/-- The level that a name stands for. -/
def levelNamed : String → Int
  | "DEBUG" => Severity.debug.level
  | "INFO" => Severity.info.level
  | "WARNING" | "WARN" => Severity.warning.level
  | "ERROR" => Severity.error.level
  | "CRITICAL" | "FATAL" => 50
  | "NOTSET" => 0
  | _ => Severity.info.level

/-- What the name of a standard format is refused with in the place of a level. -/
def refusal? : String → Option Fault
  | "BASIC_FORMAT" => some (.unknownLevel standardFormat.2)
  | "_STYLES" => some (.levelOfOtherType standardStyles.2)
  | _ => none

end RootLogger

namespace LogSetup

/-- The name by which the level is looked up. -/
def name (setup : LogSetup) : String := Setting.capitals setup.level

/-- The root logger that a setup makes: one handler, and one level for both. -/
def root (setup : LogSetup) : RootLogger :=
  let level := RootLogger.levelNamed setup.name
  ⟨level, [⟨level, setup.format, setup.extra⟩]⟩

end LogSetup

namespace RootLogger

/-- A root logger after a setup. A setup that is refused changes nothing. -/
def afterSetup (root : RootLogger) (setup : LogSetup) : RootLogger :=
  match root.setup setup.level setup.format setup.extra with
  | .ok later => later
  | .error _ => root

def after (root : RootLogger) (setups : List LogSetup) : RootLogger := setups.foldl afterSetup root

/-- A name that names no level stands for the level of information. -/
theorem levelNamed_eq (name : String) :
    levelNamed name = (standardLevels.lookup name).getD Severity.info.level := by
  unfold levelNamed
  split
  case h_9 =>
    rename_i debug info warning warn error critical fatal notset
    have unlisted : standardLevels.lookup name = none := by
      rw [List.lookup_eq_none_iff]
      simp only [standardLevels, List.forall_mem_cons, bne_iff_ne]
      exact ⟨debug, info, warning, warn, error, critical, fatal, notset, List.forall_mem_nil _⟩
    rw [unlisted, Option.getD_none]
  all_goals rfl

private theorem refusal?_eq_none {name : String} (format : name ≠ standardFormat.1)
    (styles : name ≠ standardStyles.1) : refusal? name = none := by
  unfold refusal?
  split
  · exact absurd rfl format
  · exact absurd rfl styles
  · rfl

private theorem levelOf_eq (text : String) :
    levelOf text =
      match refusal? (Setting.capitals text) with
      | some fault => .error fault
      | none => .ok (levelNamed (Setting.capitals text)) := by
  rw [levelOf, ← Setting.capitals, levelNamed_eq]
  generalize Setting.capitals text = name
  by_cases format : name = standardFormat.1
  · subst format
    rfl
  by_cases styles : name = standardStyles.1
  · subst styles
    rfl
  rw [refusal?_eq_none format styles]
  cases standardLevels.lookup name with
  | some level => rfl
  | none => exact (if_neg format).trans (if_neg styles)

/-- **A setup is refused for a format in the place of its level, and otherwise makes its root logger**,
whatever root logger it finds. -/
theorem setup_eq (root : RootLogger) (setup : LogSetup) :
    root.setup setup.level setup.format setup.extra =
      match refusal? setup.name with
      | some fault => .error fault
      | none => .ok setup.root := by
  rw [RootLogger.setup, levelOf_eq, ← LogSetup.name]
  cases refusal? setup.name <;> rfl

private theorem afterSetup_eq (root : RootLogger) (setup : LogSetup) :
    root.afterSetup setup = if refusal? setup.name = none then setup.root else root := by
  rw [afterSetup, setup_eq]
  cases refusal? setup.name <;> rfl

/-- The root logger is that of the last setup that was not refused. -/
theorem after_eq (root : RootLogger) (setups : List LogSetup) :
    root.after setups =
      ((setups.filter fun setup => refusal? setup.name = none).getLast?.map LogSetup.root).getD root := by
  induction setups using List.reverseRecOn with
  | nil => rfl
  | append_singleton setups setup ih =>
      rw [after, List.foldl_concat, ← after, afterSetup_eq, List.filter_append]
      by_cases taken : refusal? setup.name = none
      · simp [taken]
      · simp [taken, ih]

end RootLogger

end SpotCapacity
