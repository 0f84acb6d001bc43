import EgressControl.Address.Set
import EgressControl.Allow.Store
import EgressControl.Error.Setup
import EgressControl.Log
import EgressControl.Text.Split

/-! # The allow list during a run

An `AllowManager` fills the store of allowed addresses before connections are looked at
(`seed`), and widens it when a connection goes to an address with an allowed name (`observe`).
Nothing is ever taken out.  The manager remembers which addresses it let in because of a name. -/

namespace EgressControl

/-- A store of allowed addresses and the rule by which it grows. -/
structure AllowManager (σ : Type) where
  store : σ
  /-- A name is allowed if it contains one of these. -/
  suffixes : List String
  /-- The addresses that were let in because of a name. -/
  extended : AddressSet := .empty

namespace AllowManager

/-- The kernel's map of allowed addresses. -/
def mapName : String := "allow_map"

variable {σ : Type}

/-- Whether a name contains one of the allowed parts. -/
def allows (m : AllowManager σ) (name : String) : Bool :=
  m.suffixes.any fun s => Text.occursIn s.toList name.toList

/-- The first allowed name of a list. -/
def matchingName (m : AllowManager σ) (names : List String) : Option String :=
  names.find? m.allows

/-- The number of addresses that were let in because of a name. -/
def extendedCount (m : AllowManager σ) : Nat := m.extended.size

/-- The manager after addresses have been written, and how that went. -/
structure Seeding (σ : Type) where
  manager : AllowManager σ
  logs : List Log.Line
  /-- The number of addresses that were written. -/
  count : Nat
  /-- The failure that ended the matter. -/
  failure : Option MapError

/-- The line on an address that has been written. -/
def seedLine (x : Ipv4) : Log.Line := .debug ("allow-list seeded with " ++ x.text)

/-- The line on the end of writing. -/
def seedCountLine (count : Nat) : Log.Line :=
  .info ("allow-list seeded with " ++ count.repr ++ " address(es)")

/-- Writes addresses up to the first failure. -/
def seedEach [AllowStore σ] (m : AllowManager σ) : List Ipv4 → Seeding σ
  | [] => ⟨m, [], 0, none⟩
  | x :: xs =>
    match AllowStore.put m.store x with
    | .error e => ⟨m, [], 0, some e⟩
    | .ok store =>
      let s := seedEach { m with store } xs
      ⟨s.manager, seedLine x :: s.logs, s.count + 1, s.failure⟩

/-- Writes addresses into the store; the first failure ends the matter. -/
def seed [AllowStore σ] (m : AllowManager σ) (xs : List Ipv4) : Seeding σ :=
  let s := m.seedEach xs
  match s.failure with
  | none => { s with logs := s.logs ++ [seedCountLine s.count] }
  | some _ => s

/-- `seed` writes what `seedEach` writes. -/
theorem manager_seed [AllowStore σ] (m : AllowManager σ) (xs : List Ipv4) :
    (m.seed xs).manager = (m.seedEach xs).manager := by
  simp only [seed]
  split <;> rfl

/-- `seed` counts what `seedEach` counts. -/
theorem count_seed [AllowStore σ] (m : AllowManager σ) (xs : List Ipv4) :
    (m.seed xs).count = (m.seedEach xs).count := by
  simp only [seed]
  split <;> rfl

/-- `seed` fails exactly where `seedEach` fails. -/
theorem failure_seed [AllowStore σ] (m : AllowManager σ) (xs : List Ipv4) :
    (m.seed xs).failure = (m.seedEach xs).failure := by
  simp only [seed]
  split <;> simp_all

/-- The number of addresses written, or the failure as the run reports it. -/
def Seeding.result (s : Seeding σ) : Except SetupError Nat :=
  match s.failure with
  | none => .ok s.count
  | some e => .error (.map mapName e)

/-- The manager after an address has been observed, and whether the address is allowed because
of its name. -/
structure Observed (σ : Type) where
  manager : AllowManager σ
  allowed : Bool
  logs : List Log.Line

/-- The line on an address that could not be written. -/
def failureLine (x : Ipv4) (e : MapError) : Log.Line :=
  .error ("failed to update allow list (map) with " ++ x.text ++ ": " ++ e.message)

/-- The line on an address that was let in because of a name. -/
def extensionLine (x : Ipv4) (name : String) : Log.Line :=
  .info ("allow-list extended: " ++ x.text ++ " (" ++ name ++ ")")

/-- Lets an address in if one of its names is allowed.  A failure to write it is reported, and
the address is not counted as allowed then. -/
def observe [AllowStore σ] (m : AllowManager σ) (x : Ipv4) (names : List String) : Observed σ :=
  match m.matchingName names with
  | none => ⟨m, false, []⟩
  | some name =>
    match AllowStore.put m.store x with
    | .error e => ⟨m, false, [failureLine x e]⟩
    | .ok store =>
      -- An address that is put again is not told again.
      let logs := if m.extended.contains x then [] else [extensionLine x name]
      ⟨{ m with store, extended := m.extended.add x }, true, logs⟩

end AllowManager

end EgressControl
