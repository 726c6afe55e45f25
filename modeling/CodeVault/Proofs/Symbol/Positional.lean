import CodeVault.Proofs.Symbol.Registered
import CodeVault.Proofs.Symbol.Renaming

/-!
# Ids do not depend on addresses

Two processes make the same registrations with other addresses: an injective `ρ` leads from the
addresses of the one to those of the other.

* `install_rename` is one registration in both processes; from it comes a whole course of them: the
  outcomes (`refusals_rename`) and the tables (`after_rename`);
* **both processes agree on every outcome, on the phase, on the sizes of all buckets and on every
  id** (`ids_of_renamed`).
-/

namespace CodeVault.AddressTable

open Function

variable {ρ : Address → Address}

/-! ## 1. Registrations in both processes -/

/-- **Registrations of other addresses lead to the table of other addresses.** -/
theorem after_rename (hρ : Injective ρ) (table : AddressTable) (installations : List Installation) :
    (table.rename ρ).after (installations.map (·.rename ρ)) =
      (table.after installations).rename ρ := by
  induction installations generalizing table with
  | nil => rfl
  | cons installation later ih =>
    rw [List.map_cons, after_cons, after_cons, install_rename hρ, stateOf_renameOutcome, ih]

/-- **Registrations of other addresses are refused for the same, one by one**, but for the
    addresses. -/
theorem refusals_rename (hρ : Injective ρ) (table : AddressTable)
    (installations : List Installation) :
    (table.rename ρ).refusals (installations.map (·.rename ρ)) =
      (table.refusals installations).map (·.map (·.rename ρ)) := by
  induction installations generalizing table with
  | nil => rfl
  | cons installation later ih =>
    rw [List.map_cons, refusals, refusals, install_rename hρ, causeOf?_renameOutcome,
      stateOf_renameOutcome, ih, List.map_cons]

theorem rename_empty : empty.rename ρ = empty := rfl

/-! ## 2. Ids in both processes -/

/-- **An id leads to the other address, or is refused for the same.** -/
theorem address_rename (table : AddressTable) (id : Nat) :
    (table.rename ρ).address id = (table.address id).map ρ := by
  unfold address
  cases Bucket.forId? id with
  | none => rfl
  | some bucket =>
    dsimp only
    rw [addresses_rename, Array.getElem?_map]
    cases (table.addresses bucket)[id - bucket.base]? with
    | some addr => rfl
    | none =>
      rw [show (table.rename ρ).phase = table.phase from rfl]
      dsimp only [Option.map_none]
      split <;> rfl

/-- **Ids are positions, whatever the addresses are.** After the same registrations with other
    addresses, each of which was refused for the same as in the first process, or not at all: phase
    and sizes are the same, an address has the id that it has in the first process under its name
    there, and an id leads to the address that it leads to there, or is refused for the same. -/
theorem ids_of_renamed (hρ : Injective ρ) (installations : List Installation) :
    let first := empty.after installations
    let second := empty.after (installations.map (·.rename ρ))
    empty.refusals (installations.map (·.rename ρ)) =
      (empty.refusals installations).map (·.map (·.rename ρ)) ∧
    second.phase = first.phase ∧
    (∀ bucket, (second.addresses bucket).size = (first.addresses bucket).size) ∧
    (∀ addr, second.lookup? (ρ addr) = first.lookup? addr) ∧
    ∀ id, second.address id = (first.address id).map ρ := by
  intro first second
  have hsecond : second = first.rename ρ := by
    rw [← after_rename hρ, rename_empty]
  have houtcomes := refusals_rename hρ empty installations
  rw [rename_empty] at houtcomes
  rw [hsecond]
  refine ⟨houtcomes, rfl, fun bucket => ?_, lookup?_rename hρ first, address_rename first⟩
  rw [addresses_rename, Array.size_map]

/-! An example: the addresses of the second process are all those of the first, one page further. -/

theorem ids_of_renamed_shifted :
    Injective (fun addr : Address => addr + 4096) ∧
    let second := empty.after (crossed.map (·.rename (· + 4096)))
    empty.refusals (crossed.map (·.rename (· + 4096))) =
      [some (.ambiguous 12288 .external .stub), none, none, none] ∧
    second.phase = .complete ∧ (second.addresses .external).size = 3 ∧
    second.lookup? 8192 = some 0 ∧ second.address 512 = .ok 16384 := by
  have hshift : Injective (fun addr : Address => addr + 4096) :=
    fun a b hsame => by simpa using hsame
  obtain ⟨houtcomes, hphase, hsize, hlookup, haddress⟩ := ids_of_renamed hshift crossed
  exact ⟨hshift, houtcomes.trans (by decide +kernel), hphase.trans (by decide +kernel),
    (hsize .external).trans (by decide +kernel), (hlookup 4096).trans (by decide +kernel),
    (haddress 512).trans (by decide +kernel)⟩

end CodeVault.AddressTable
