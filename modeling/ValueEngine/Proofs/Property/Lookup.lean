import ValueEngine.Proofs.Property.FiniteMap

/-! Looking properties up after a mutation, for tables that stand for some finite map, as
every table does that has been built by mutations. -/

namespace ValueEngine.Property.Table

variable {hash : String → ℕ} {t : Table}

/-- The table stands for some finite map. -/
def Lawful (hash : String → ℕ) (t : Table) : Prop := ∃ m, Stands hash t m

namespace Lawful

theorem withCapacity (hash : String → ℕ) (capacity : ℕ) :
    Lawful hash (withCapacity capacity) :=
  ⟨∅, stands_withCapacity hash capacity⟩

theorem perform (ht : Lawful hash t) (c : Mutation) : Lawful hash (t.perform hash c).2 := by
  obtain ⟨m, hs⟩ := ht
  exact ⟨_, (hs.step c).2⟩

/-- Setting changes what its key holds, with the flags that were there, and nothing else. -/
theorem get?_set (ht : Lawful hash t) (key : String) (v : Value) (key' : String) :
    (t.set hash key v).2.get? hash key' =
      if key' = key then
        some ⟨key', .data v, ((t.get? hash key).map (·.flags)).getD Flags.all⟩
      else t.get? hash key' := by
  obtain ⟨m, hs⟩ := ht
  have hbefore := hs.agrees.get?
  have hafter := (hs.set key v).2.agrees.get?
  rw [hafter, Entries.perform]
  by_cases hkey : key' = key
  · subst hkey
    rw [if_pos rfl, Finmap.lookup_insert, hbefore]
    cases m.lookup key' <;> rfl
  · rw [if_neg hkey, Finmap.lookup_insert_of_ne _ hkey, hbefore]

theorem get?_define (ht : Lawful hash t) (key : String) (slot : Slot) (flags : Flags)
    (key' : String) :
    (t.define hash key slot flags).2.get? hash key' =
      if key' = key then some ⟨key', slot, flags⟩ else t.get? hash key' := by
  obtain ⟨m, hs⟩ := ht
  have hbefore := hs.agrees.get?
  have hafter := (hs.define key slot flags).2.agrees.get?
  rw [hafter, Entries.perform]
  by_cases hkey : key' = key
  · subst hkey
    rw [if_pos rfl, Finmap.lookup_insert]
    rfl
  · rw [if_neg hkey, Finmap.lookup_insert_of_ne _ hkey, hbefore]

theorem get?_erase (ht : Lawful hash t) (key key' : String) :
    (t.erase hash key).2.get? hash key' =
      if key' = key then none else t.get? hash key' := by
  obtain ⟨m, hs⟩ := ht
  have hbefore := hs.agrees.get?
  have hafter := (hs.step (.erase key)).2.agrees.get?
  rw [Table.perform] at hafter
  rw [hafter, Entries.perform]
  by_cases hkey : key' = key
  · subst hkey
    rw [if_pos rfl, Finmap.lookup_erase]
    rfl
  · rw [if_neg hkey, Finmap.lookup_erase_ne hkey, hbefore]

end Lawful

end ValueEngine.Property.Table
