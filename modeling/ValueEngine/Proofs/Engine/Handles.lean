import ValueEngine.Growable.Element
import ValueEngine.Proofs.Engine.Comparison
import ValueEngine.Proofs.Number.Precision

/-! The handles of references. A reference holds its handle as a double, so that a handle comes
back as it is exactly if it has no more significant bits than a double, or is the largest one,
to which everything above is held. Such handles tell references apart, and at the boundary it
is them that are resolved. -/

namespace ValueEngine

namespace Engine

open Number (Fits rounded)

section RoundTrip

variable {e t : Engine} {id id' : ObjectId} {kind kind' : ExternalKind}
  {handle handle' environment environment' : UInt64}

/-- A handle that a reference gives back as it is. -/
def Kept (handle : UInt64) : Prop := Fits handle.toNat ∨ handle = 0xffffffffffffffff

/-- What comes back is the nearest number that a double denotes, or the largest handle. -/
theorem heldHandle_eq (handle : UInt64) :
    heldHandle handle = .ofNat (min 0xffffffffffffffff (rounded handle.toNat)) := by
  have hlength : Number.bitLength handle.toNat ≤ 64 := Number.bitLength_le_of_lt handle.toNat_lt
  exact Number.toUInt64_of_denotes (Number.denotes_rounded (hlength.trans (by decide)))

theorem heldHandle_eq_self_iff : heldHandle handle = handle ↔ Kept handle := by
  have hlt : handle.toNat < 2 ^ 64 := handle.toNat_lt
  have hmin : min 0xffffffffffffffff (rounded handle.toNat) < 2 ^ 64 :=
    (Nat.min_le_left _ _).trans_lt (by decide)
  rw [heldHandle_eq, Kept, ← Number.rounded_eq_self_iff, ← UInt64.toNat_inj, ← UInt64.toNat_inj,
    UInt64.toNat_ofNat_of_lt' hmin]
  constructor
  · intro h
    obtain hheld | hrounded := min_choice 0xffffffffffffffff (rounded handle.toNat)
    · exact .inr (h.symm.trans hheld)
    · exact .inl (hrounded.symm.trans h)
  · rintro (h | h)
    · rw [h]
      exact Nat.min_eq_right (Nat.le_of_lt_succ hlt)
    · have hlargest : min 0xffffffffffffffff (rounded 0xffffffffffffffff) =
          0xffffffffffffffff := by
        decide +kernel
      rw [h]
      exact hlargest

variable [Library]

theorem createReference_tag (e : Engine) (kind : ExternalKind) (handle environment : UInt64) :
    e.createReference kind.tag handle environment =
      .ok (e.createExternal kind handle environment) := by
  cases kind <;> rfl

theorem createExternal_value (e : Engine) (kind : ExternalKind) (handle environment : UInt64) :
    (e.createExternal kind handle environment).1.value = .object e.objects.size := rfl

namespace Refers

variable (he : e.Sound) (href : e.Refers id kind handle environment)

include he href

theorem resolve_eq (table : UInt64 → Option UInt64) :
    e.resolve table (.object id) = table (heldHandle handle) := by
  rw [resolve, href.toExternal_eq he]

theorem toExternal_eq_iff : e.toExternal (.object id) = .ok (kind, handle) ↔ Kept handle := by
  rw [href.toExternal_eq he, ← heldHandle_eq_self_iff]
  exact ⟨fun h => congrArg Prod.snd (Except.ok.inj h), fun h => by rw [h]⟩

/-- References are compared at the boundary by what their handles resolve to. -/
theorem compareAtBoundary_eq (href' : e.Refers id' kind' handle' environment') {l r : Box}
    (hl : l.value = .object id) (hr : r.value = .object id') (hcoherent : Box.Coherent [l, r])
    (op : Operator) (table : UInt64 → Option UInt64) :
    e.compareAtBoundary l r op table =
      op.testSame (table (heldHandle handle) == table (heldHandle handle')) := by
  have hleft : e.resolve table l.value = table (heldHandle handle) := by
    rw [hl, href.resolve_eq he]
  have hright : e.resolve table r.value = table (heldHandle handle') := by
    rw [hr, href'.resolve_eq he]
  have hresolved : e.isResolved l.value = true ∧ e.isResolved r.value = true := by
    rw [hl, hr]
    exact ⟨href.isResolved_eq he, href'.isResolved_eq he⟩
  by_cases htype : e.typeOf l.value = e.typeOf r.value
  · rw [compareAtBoundary_of_type_eq htype, hresolved.1, Bool.true_and, hleft, hright, compare]
    split_ifs with hbox
    · -- In one box there is one reference, so that both handles resolve to the same.
      have hvalue := hcoherent l (by simp) r (by simp) hbox
      rw [← hleft, ← hright, hvalue, beq_self_eq_true]
      cases op <;> rfl
    · rw [hl, href.typeOf_eq he]
      cases kind <;> rfl
  · rw [compareAtBoundary_of_type_ne htype, hresolved.1, hresolved.2, hleft, hright]
    rfl

end Refers

/-- A reference gives its handle back if that is kept, and has a table asked for it. -/
structure GivesBack (e : Engine) (v : Value) (kind : ExternalKind) (handle : UInt64) : Prop where
  exact : e.toExternal v = .ok (kind, handle) ↔ Kept handle
  resolved : Kept handle → ∀ table, e.resolve table v = table handle

theorem Refers.givesBack (he : e.Sound) (href : e.Refers id kind handle environment) :
    e.GivesBack (.object id) kind handle where
  exact := href.toExternal_eq_iff he
  resolved hkept table := by rw [href.resolve_eq he, heldHandle_eq_self_iff.mpr hkept]

/-- A new reference stands for its host object, and those made before for theirs. -/
theorem Refers.createExternal (he : e.Reachable) (href : e.Refers id kind handle environment)
    (kind' : ExternalKind) (handle' environment' : UInt64) :
    (e.createExternal kind' handle' environment').2.Sound ∧
      (e.createExternal kind' handle' environment').2.Refers id kind handle environment := by
  have hstep := (Step.createReference (createReference_tag e kind' handle' environment')).steps
  exact ⟨(he.steps hstep).sound, hstep.refers he.sound href⟩

/-- **Handles that a double holds survive the round trip.** In every reachable engine, and at
whatever step after a reference has been made, the reference gives back its kind and its handle
exactly if the handle is kept; a handle that is kept is what a table is asked for. Two
references to kept handles give back the same only if they are of one kind and one handle, and
are compared at the boundary by what these handles resolve to. A handle among the elements of an
array comes back from its box just so. -/
theorem handle_round_trip (he : e.Reachable) (handle : UInt64) :
    (∀ kind environment, ∃ made, e.createReference kind.tag handle environment = .ok made ∧
      ∀ t, Steps made.2 t → t.GivesBack made.1.value kind handle ∧
        ∀ kind' handle' environment', Kept handle → Kept handle' → ∃ made',
          t.createReference kind'.tag handle' environment' = .ok made' ∧
            (made'.2.toExternal made.1.value = made'.2.toExternal made'.1.value ↔
              kind = kind' ∧ handle = handle') ∧
            (Box.Coherent [made.1, made'.1] → ∀ op table,
              made'.2.compareAtBoundary made.1 made'.1 op table =
                op.testSame (table handle == table handle'))) ∧
      (let boxed := Element.box (⟨handle⟩ : HostRef) e
      boxed.2.GivesBack boxed.1.value .object handle) := by
  have hnew : ∀ kind environment, (e.createExternal kind handle environment).2.Reachable :=
    fun kind environment =>
      he.steps (Step.createReference (createReference_tag e kind handle environment)).steps
  constructor
  · intro kind environment
    refine ⟨e.createExternal kind handle environment, createReference_tag e _ _ _, ?_⟩
    intro t hsteps
    have ht : t.Reachable := (hnew kind environment).steps hsteps
    have href : t.Refers e.objects.size kind handle environment :=
      hsteps.refers (hnew kind environment).sound (refers_createExternal e kind handle environment)
    refine ⟨href.givesBack ht.sound, fun kind' handle' environment' hkept hkept' => ?_⟩
    refine ⟨t.createExternal kind' handle' environment', createReference_tag t _ _ _, ?_⟩
    obtain ⟨ht', hfirst⟩ := href.createExternal ht kind' handle' environment'
    have hsecond := refers_createExternal t kind' handle' environment'
    have hheld := heldHandle_eq_self_iff.mpr hkept
    have hheld' := heldHandle_eq_self_iff.mpr hkept'
    constructor
    · rw [createExternal_value, createExternal_value, hfirst.toExternal_eq ht',
        hsecond.toExternal_eq ht', hheld, hheld', Except.ok.injEq, Prod.mk.injEq]
    · intro hcoherent op table
      rw [hfirst.compareAtBoundary_eq ht' hsecond rfl rfl hcoherent, hheld, hheld']
  · exact (refers_createExternal e .object handle 0).givesBack (hnew .object 0).sound

end RoundTrip

/-- A handle with as many significant bits as a double has, and a bit longer, comes back. -/
theorem handle_round_trip_even :
    let made := (Engine.new .standard).createExternal .interface 9007199254740994 0
    made.2.toExternal made.1.value = .ok (.interface, 9007199254740994) := by
  intro made
  have hkept : Kept 9007199254740994 := .inl ⟨4503599627370497, 1, by decide, by decide⟩
  obtain ⟨hround, -⟩ := handle_round_trip (e := Engine.new .standard) ⟨.standard, .refl⟩
    9007199254740994
  obtain ⟨made', hmade, hlater⟩ := hround .interface 0
  rw [createReference_tag, Except.ok.injEq] at hmade
  subst hmade
  exact (hlater _ .refl).1.exact.mpr hkept

/-- The handle in between does not fit: two references give back one handle. -/
theorem odd_handle_rounded :
    let made := (Engine.new .standard).createExternal .object 9007199254740993 0
    let made' := made.2.createExternal .object 9007199254740992 0
    made.2.toExternal made.1.value = .ok (.object, 9007199254740992) ∧
      made'.2.toExternal made'.1.value = .ok (.object, 9007199254740992) ∧
      ∀ table, made'.2.resolve table made.1.value = table 9007199254740992 := by
  intro made made'
  have hnew : (Engine.new .standard).Reachable := ⟨.standard, .refl⟩
  have hmade : made.2.Reachable := hnew.steps
    (Step.createReference (createReference_tag _ .object 9007199254740993 0)).steps
  have href : made.2.Refers _ .object 9007199254740993 0 := refers_createExternal _ _ _ _
  obtain ⟨hmade', hfirst⟩ := href.createExternal hmade .object 9007199254740992 0
  have hsecond : made'.2.Refers _ .object 9007199254740992 0 := refers_createExternal _ _ _ _
  have hodd : heldHandle 9007199254740993 = 9007199254740992 := by decide +kernel
  have heven : heldHandle 9007199254740992 = 9007199254740992 := by decide +kernel
  refine ⟨?_, ?_, fun table => ?_⟩
  · rw [← hodd]
    exact href.toExternal_eq hmade.sound
  · rw [← heven]
    exact hsecond.toExternal_eq hmade'
  · rw [← hodd]
    exact hfirst.resolve_eq hmade' table

end Engine

end ValueEngine
