import PortalSearch.Text.Basic

/-!
# Journal

What a call tells the outside besides its result: warnings about its use, each with the
receiver it was handed to, and log records. A warning goes to the receiver the caller
gave; without one, to the receiver set for the whole environment; without that one too, it
becomes a log record. Two journals are put together in order by `++`.
-/

namespace PortalSearch

/-- The part of the library that a record comes from. -/
inductive Channel where
  /-- building queries -/
  | query
  /-- checking how the library is used -/
  | usage
  /-- searching -/
  | search
  /-- operations on groups -/
  | groups
  /-- the connection -/
  | requests
  /-- hooks on responses -/
  | hooks
  deriving DecidableEq

/-- How serious a record is. -/
inductive Level where
  /-- of interest when looking for a fault -/
  | debug
  /-- something is probably wrong -/
  | warning
  deriving DecidableEq

/-- A log record. -/
structure Record where
  /-- where it comes from -/
  channel : Channel
  /-- how serious it is -/
  level : Level
  /-- what it says -/
  message : Text
  deriving DecidableEq

/-- Someone who takes warnings. -/
inductive Receiver where
  /-- the one that the caller gave -/
  | own
  /-- the one set for the whole environment -/
  | environment
  deriving DecidableEq

/-- Who gets a warning, if anyone: the caller's receiver goes before the environment's. -/
def Receiver.choose (own environment : Bool) : Option Receiver :=
  if own then some .own else if environment then some .environment else none

/-- Warnings and records in the order in which they arose. -/
structure Journal where
  /-- warnings with their receivers -/
  warnings : List (Receiver × Text)
  /-- log records -/
  records : List Record
  deriving DecidableEq

namespace Journal

/-- Nothing was told. -/
def empty : Journal := ⟨[], []⟩

instance : Append Journal := ⟨fun a b => ⟨a.warnings ++ b.warnings, a.records ++ b.records⟩⟩

/-- One record. -/
def record (r : Record) : Journal := ⟨[], [r]⟩

/-- One warning, handed to its receiver or logged if there is none. -/
def warn (receiver : Option Receiver) (message : Text) : Journal :=
  match receiver with
  | some r => ⟨[(r, message)], []⟩
  | none => ⟨[], [⟨.usage, .warning, message⟩]⟩

/-- Several journals in order. -/
def concat (js : List Journal) : Journal := js.foldr (· ++ ·) empty

@[simp] theorem append_warnings (a b : Journal) :
    (a ++ b).warnings = a.warnings ++ b.warnings := rfl

@[simp] theorem append_records (a b : Journal) : (a ++ b).records = a.records ++ b.records := rfl

theorem append_assoc (a b c : Journal) : a ++ b ++ c = a ++ (b ++ c) := by
  change mk _ _ = mk _ _
  rw [append_warnings, append_warnings, append_records, append_records, List.append_assoc,
    List.append_assoc]

end Journal

end PortalSearch
