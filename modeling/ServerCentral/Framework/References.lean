import ServerCentral.Framework.Table

/-!
# References from one table into another

The values of a table, the holders, refer to keys of another table, the targets.
`Resolved` says that no reference dangles. New targets keep it, and so does the removal of
a target that nobody refers to; `Resolved.edit_holders` is the one rule for every edit of the
holders.
-/

namespace Framework

variable {J K H T : Type*} [DecidableEq J] [DecidableEq K]

/-- Every key a stored holder refers to is stored. -/
def Resolved (refs : H → List K) (holders : Table J H) (targets : Table K T) : Prop :=
  ∀ j v, holders.get? j = some v → ∀ k ∈ refs v, (targets.get? k).isSome = true

namespace Resolved

variable {refs refs' : H → List K} {holders holders' : Table J H} {targets targets' : Table K T}

/-- **Edits of the holders**: each one refers to what a holder referred to before, or to
stored targets. -/
theorem edit_holders (h : Resolved refs holders targets)
    (h_edit : ∀ j v, holders'.get? j = some v →
      (∃ v', holders.get? j = some v' ∧ refs' v = refs v') ∨
        ∀ k ∈ refs' v, (targets.get? k).isSome = true) :
    Resolved refs' holders' targets := by
  intro j v h_v k h_k
  obtain ⟨v', h_v', h_refs⟩ | h_new := h_edit j v h_v
  · exact h j v' h_v' k (h_refs ▸ h_k)
  · exact h_new k h_k

/-- Targets that are still there. -/
theorem keep_targets (h : Resolved refs holders targets)
    (h_keep : ∀ k, (targets.get? k).isSome = true → (targets'.get? k).isSome = true) :
    Resolved refs holders targets' :=
  fun j v h_v k h_k => h_keep k (h j v h_v k h_k)

/-- Removing a target nobody refers to. -/
theorem erase_target (h : Resolved refs holders targets) {k : K}
    (h_free : ∀ j v, holders.get? j = some v → k ∉ refs v) :
    Resolved refs holders (targets.erase k) := by
  intro j v h_v k' h_k'
  have h_ne : k' ≠ k := by
    rintro rfl
    exact h_free j v h_v h_k'
  rw [Table.get?_erase_of_ne targets h_ne]
  exact h j v h_v k' h_k'

end Resolved

/-- Storing a value keeps what is stored. -/
theorem Table.isSome_set {t : Table K T} {k k' : K} (v : T) (h : (t.get? k').isSome = true) :
    ((t.set k v).get? k').isSome = true := by
  rw [Table.get?_set]
  split
  · rfl
  · exact h

end Framework
