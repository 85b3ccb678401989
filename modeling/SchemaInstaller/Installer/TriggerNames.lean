import SchemaInstaller.Manifest.Basic

/-!
# Names of installed triggers

A trigger must not share its name with a table, a view or a procedure, nor with another trigger, in
any case of letters. It gets the first free one of its own name, that name with a suffix, and that
name with a suffix and a number from two on.
-/

namespace SchemaInstaller.TriggerNames

/-- The candidates for a name, in order. -/
def candidate (base : Text) : Nat → Text
  | 0 => base
  | 1 => base ++ "_trg".toList
  | n => base ++ "_trg".toList ++ Nat.toDigits 10 n

/-- The first candidate from the `n`-th on whose lower case is not taken, looking at `fuel`
candidates. -/
def firstFreeFrom (taken : List Text) (base : Text) : Nat → Nat → Text
  | 0, _ => base
  | fuel + 1, n =>
    if taken.contains (Text.lower (candidate base n)) then firstFreeFrom taken base fuel (n + 1)
    else candidate base n

/-- The first candidate whose lower case is not taken. No two candidates have the same lower case,
so one more candidate than there are taken names is enough. -/
def firstFree (taken : List Text) (base : Text) : Text :=
  firstFreeFrom taken base (taken.length + 1) 0

/-- The name that the candidates start from: the trigger's own without blanks around it. -/
def base (t : Trigger) : Text :=
  match Text.trim t.name.toList with
  | [] => "trigger".toList
  | name => name

/-- The names of triggers one after another, given what is taken in lower case. -/
def assign (taken : List Text) : List Trigger → List String
  | [] => []
  | t :: r =>
    let name := firstFree taken (base t)
    String.ofList name :: assign (Text.lower name :: taken) r

/-- The names that no trigger may have, in lower case. -/
def reserved (m : Manifest) : List Text :=
  let names := m.tables.map (·.name) ++ m.views.map (·.name) ++ m.storedProcedures.map (·.name)
  names.map fun n => Text.lower n.toList

end TriggerNames

/-- The names under which the triggers of a manifest are installed, in its order. -/
def Manifest.triggerNames (m : Manifest) : List String :=
  TriggerNames.assign (TriggerNames.reserved m) m.triggers

end SchemaInstaller
