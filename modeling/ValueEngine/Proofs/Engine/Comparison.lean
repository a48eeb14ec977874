import ValueEngine.Proofs.Engine.References
import ValueEngine.Proofs.Text.Bytes

/-! Comparison at the boundary. Exchanging the operands turns an operator around and changes no
answer. Equality is an equivalence: null and references are equal if they resolve to the same,
and other values if they are of one kind and have the same content, or are in one box where
contents of their kind are not compared. Inequality is the negation of equality but for
symbols: no operator holds of two in different boxes. The table by which references resolve is
any function, and nothing is asked of the engine; of the boxes it is asked that one identity
goes with one value. -/

namespace ValueEngine

/-- Boxes of one identity are one box, which holds one value. -/
def Box.Coherent (bs : List Box) : Prop :=
  ∀ b ∈ bs, ∀ c ∈ bs, b.sameBox c = true → b.value = c.value

theorem Box.coherent_of_nodup {bs : List Box} (h : (bs.map Box.id).Nodup) : Box.Coherent bs := by
  intro b hb c hc hbox
  rw [List.inj_on_of_nodup_map h hb hc (beq_iff_eq.mp hbox)]

/-- Symbols in two different boxes. -/
def Box.ApartSymbols (l r : Box) : Prop :=
  l.sameBox r = false ∧ l.value.tag = .symbol ∧ r.value.tag = .symbol

namespace Operator

/-- The operator that says of exchanged operands what this one says of them. -/
def swap : Operator → Operator
  | less => greater
  | greater => less
  | atMost => atLeast
  | atLeast => atMost
  | op => op

@[simp] theorem test_swap (op : Operator) (o : Option Ordering) :
    op.swap.test (o.map Ordering.swap) = op.test o := by
  cases op <;> rcases o with _ | _ | _ | _ <;> rfl

@[simp] theorem holdsOfEqual_swap (op : Operator) : op.swap.holdsOfEqual = op.holdsOfEqual := by
  cases op <;> rfl

@[simp] theorem isEquality_swap (op : Operator) : op.swap.isEquality = op.isEquality := by
  cases op <;> rfl

@[simp] theorem isInequality_swap (op : Operator) : op.swap.isInequality = op.isInequality := by
  cases op <;> rfl

@[simp] theorem testSame_swap (op : Operator) (same : Bool) :
    op.swap.testSame same = op.testSame same := by
  cases op <;> rfl

/-- Operators that say the same of every order. -/
structure Alike (op op' : Operator) : Prop where
  test : op.test = op'.test
  holdsOfEqual : op.holdsOfEqual = op'.holdsOfEqual
  isEquality : op.isEquality = op'.isEquality
  isInequality : op.isInequality = op'.isInequality

theorem alike_equal : Alike identical equal := ⟨rfl, rfl, rfl, rfl⟩

theorem alike_unequal : Alike notIdentical unequal := ⟨rfl, rfl, rfl, rfl⟩

theorem test_unequal (o : Option Ordering) : unequal.test o = !equal.test o := rfl

theorem testSame_unequal (same : Bool) : unequal.testSame same = !equal.testSame same := rfl

end Operator

theorem Box.sameBox_comm (b c : Box) : b.sameBox c = c.sameBox b := Bool.beq_comm

/-- Two values of a kind like this are compared by their contents; symbols and references
only equal themselves, and only as boxes. -/
def TypeTag.hasContent : TypeTag → Bool
  | .undefined | .null | .boolean | .number | .string | .object => true
  | _ => false

theorem TypeTag.exists_kind {t : TypeTag} (h : t.isExternal = true) :
    ∃ kind : ExternalKind, t = kind.tag := by
  cases t with
  | externalObject => exact ⟨.object, rfl⟩
  | externalFunction => exact ⟨.function, rfl⟩
  | externalInterface => exact ⟨.interface, rfl⟩
  | externalArray => exact ⟨.array, rfl⟩
  | _ => cases h

namespace Engine

open Text (Utf8.encode_inj)

variable {e : Engine} {l m r : Box} {op op' : Operator} {table : UInt64 → Option UInt64}

theorem display_string (e : Engine) (s : String) : e.display (.string s) = s := rfl

/-! ### Exchanged operands -/

section Swap

theorem order_swap {α : Type} [Ord α] [Std.OrientedOrd α] (op : Operator) (a b : α) :
    op.swap.test (Ord.compare b a) = op.test (Ord.compare a b) := by
  have hswap : Ord.compare b a = (Ord.compare a b).swap := Std.OrientedCmp.eq_swap
  rw [hswap]
  exact op.test_swap (some _)

variable [Library]

theorem compare_swap (e : Engine) (h : e.typeOf l.value = e.typeOf r.value) (op : Operator) :
    e.compare r l op.swap = e.compare l r op := by
  rw [compare, compare, Box.sameBox_comm, ← h]
  split_ifs
  · exact op.holdsOfEqual_swap
  · cases e.typeOf l.value with
    | boolean => exact order_swap op _ _
    | number =>
      dsimp only
      rw [Number.order?_swap]
      exact op.test_swap _
    | string =>
      dsimp only
      rw [compareBytes_swap]
      exact op.test_swap (some _)
    | null => exact op.holdsOfEqual_swap
    | undefined => exact op.isEquality_swap
    | object =>
      dsimp only
      rw [Value.same_comm, Operator.testSame_swap]
    | _ => rfl

theorem compareAtBoundary_swap (e : Engine) (l r : Box) (op : Operator)
    (table : UInt64 → Option UInt64) :
    e.compareAtBoundary r l op.swap table = e.compareAtBoundary l r op table := by
  simp only [compareAtBoundary, Operator.isInequality_swap, Operator.testSame_swap]
  by_cases htype : e.typeOf l.value = e.typeOf r.value
  · simp only [compare_swap e htype, htype, ne_eq, not_true, false_and, Bool.or_comm, Bool.beq_comm]
  · simp only [htype, Ne.symm htype, ne_eq, false_and, if_false, Bool.or_comm, Bool.beq_comm, or_comm]

end Swap

section Alike

variable [Library]

theorem compare_of_alike (h : op.Alike op') (e : Engine) (l r : Box) :
    e.compare l r op = e.compare l r op' := by
  simp only [compare, h.test, h.holdsOfEqual, h.isEquality, Operator.testSame, h.isInequality]

theorem compareAtBoundary_of_alike (h : op.Alike op') (e : Engine) (l r : Box)
    (table : UInt64 → Option UInt64) :
    e.compareAtBoundary l r op table = e.compareAtBoundary l r op' table := by
  simp only [compareAtBoundary, compare_of_alike h, h.isInequality, Operator.testSame]

end Alike

/-! ### Equality -/

section Equality

variable [Library]

theorem typeOf_of_externalKind? {id : ObjectId} {kind : ExternalKind}
    (h : e.externalKind? id = some kind) : e.typeOf (.object id) = kind.tag := by
  simp [typeOf, Value.object?, h]

theorem typeOf_eq_tag {v : Value} (h : (e.typeOf v).isExternal = false) : e.typeOf v = v.tag := by
  cases v with
  | object id =>
    cases hkind : e.externalKind? id with
    | none => simp [typeOf, Value.object?, hkind]
    | some kind =>
      rw [typeOf_of_externalKind? hkind] at h
      cases kind <;> cases h
  | _ => rfl

/-- Operands of one kind are equal if they are one box or have the same content. -/
theorem compare_equal_iff (h : e.typeOf l.value = e.typeOf r.value) :
    e.compare l r .equal = true ↔ l.sameBox r = true ∨
      (e.typeOf l.value).hasContent = true ∧ l.value.same r.value = true := by
  rw [compare]
  split_ifs with hbox
  · simp [hbox, Operator.holdsOfEqual]
  · simp only [hbox, Bool.false_eq_true, false_or]
    cases hext : (e.typeOf l.value).isExternal with
    | true =>
      obtain ⟨kind, hkind⟩ := TypeTag.exists_kind hext
      rw [hkind]
      cases kind <;> simp [ExternalKind.tag, TypeTag.hasContent]
    | false =>
      have hl := typeOf_eq_tag hext
      have htag : l.value.tag = r.value.tag := by rw [← hl, h, typeOf_eq_tag (h ▸ hext)]
      rw [hl]
      generalize l.value = v at htag
      generalize r.value = w at htag
      cases v with
      | undefined => cases w <;> cases htag; exact iff_of_true rfl ⟨rfl, rfl⟩
      | null => cases w <;> cases htag; exact iff_of_true rfl ⟨rfl, rfl⟩
      | bool a =>
        cases w <;> cases htag
        simp [Value.tag, TypeTag.hasContent, Operator.test, Value.same, Value.bool?]
      | number x =>
        cases w <;> cases htag
        simp [Value.tag, TypeTag.hasContent, Operator.test, Value.same, Value.number?, Number.equal]
      | string s =>
        cases w <;> cases htag
        simp [Value.tag, TypeTag.hasContent, Operator.test, Value.same, display_string,
          compareBytes_eq_eq_iff, Utf8.encode_inj]
      | symbol s => cases w <;> cases htag; simp [Value.tag, TypeTag.hasContent]
      | object id =>
        cases w <;> cases htag
        simp [Value.tag, TypeTag.hasContent, Operator.testSame, Operator.isInequality]

/-- The value is compared by what it resolves to: null and references. -/
def isResolved (e : Engine) (v : Value) : Bool := v.isNull || (e.typeOf v).isExternal

theorem typeOf_of_isNull {v : Value} (h : v.isNull = true) : e.typeOf v = .null := by
  cases v <;> first | rfl | cases h

theorem eq_null_of_typeOf {v : Value} (h : e.typeOf v = .null) : v = .null := by
  have htag : v.tag = .null := by rw [← typeOf_eq_tag (by rw [h]; rfl), h]
  cases v <;> first | rfl | cases htag

theorem isResolved_iff {v : Value} :
    e.isResolved v = true ↔ e.typeOf v = .null ∨ (e.typeOf v).isExternal = true := by
  rw [isResolved, Bool.or_eq_true]
  refine or_congr_left ⟨typeOf_of_isNull, fun h => ?_⟩
  rw [eq_null_of_typeOf h]
  rfl

theorem isResolved_congr {v w : Value} (h : e.typeOf v = e.typeOf w) :
    e.isResolved v = e.isResolved w := by
  rw [Bool.eq_iff_iff, isResolved_iff, isResolved_iff, h]

theorem Refers.isResolved_eq {id : ObjectId} {kind : ExternalKind} {handle environment : UInt64}
    (he : e.Sound) (href : e.Refers id kind handle environment) :
    e.isResolved (.object id) = true := by
  rw [isResolved_iff, href.typeOf_eq he]
  cases kind <;> exact .inr rfl

theorem resolve_eq_of_compare (hbox : l.sameBox r = true → l.value = r.value)
    (hl : e.isResolved l.value = true) (htype : e.typeOf l.value = e.typeOf r.value)
    (h : e.compare l r .equal = true) : e.resolve table l.value = e.resolve table r.value := by
  obtain hsame | ⟨hcontent, -⟩ := (compare_equal_iff htype).mp h
  · rw [hbox hsame]
  · obtain hnull | hext := isResolved_iff.mp hl
    · rw [eq_null_of_typeOf hnull, eq_null_of_typeOf (htype.symm.trans hnull)]
    · obtain ⟨kind, hkind⟩ := TypeTag.exists_kind hext
      rw [hkind] at hcontent
      cases kind <;> cases hcontent

theorem not_plain (e : Engine) (v : Value) :
    (!v.isNull && !(e.typeOf v).isExternal) = !e.isResolved v :=
  (Bool.not_or ..).symm

/-- Operands of one kind are compared by its rule, and where that answers no by what they
resolve to, if they do. -/
theorem compareAtBoundary_of_type_eq (h : e.typeOf l.value = e.typeOf r.value) :
    e.compareAtBoundary l r op table =
      (e.compare l r op || e.isResolved l.value &&
        op.testSame (e.resolve table l.value == e.resolve table r.value)) := by
  simp only [compareAtBoundary, not_plain, ← isResolved_congr h]
  cases e.compare l r op <;> cases e.isResolved l.value <;> simp [h]

/-- Operands of two kinds are compared by what they resolve to, if both do, and are
unequal otherwise. -/
theorem compareAtBoundary_of_type_ne (h : e.typeOf l.value ≠ e.typeOf r.value) :
    e.compareAtBoundary l r op table =
      if e.isResolved l.value && e.isResolved r.value then
        op.testSame (e.resolve table l.value == e.resolve table r.value)
      else op.isInequality := by
  have hundef : ∀ {v : Value}, e.isResolved v = true → e.typeOf v ≠ .undefined := by
    intro v hv ht
    obtain h | h := isResolved_iff.mp hv <;> simp [ht, TypeTag.isExternal] at h
  simp only [compareAtBoundary, not_plain]
  cases hl : e.isResolved l.value <;> cases hr : e.isResolved r.value
  · simp [h]
  · simp [h]
  · simp [h]
  · simp [h, hundef hl, hundef hr]

/-- What equality at the boundary means: of two values that resolve, that they resolve to
the same, and of two others, that they are equal as values of one kind. -/
theorem compareAtBoundary_equal_iff (hbox : l.sameBox r = true → l.value = r.value) :
    e.compareAtBoundary l r .equal table = true ↔
      (e.isResolved l.value = true ∧ e.isResolved r.value = true ∧
        e.resolve table l.value = e.resolve table r.value) ∨
      (e.isResolved l.value = false ∧ e.isResolved r.value = false ∧
        e.typeOf l.value = e.typeOf r.value ∧ e.compare l r .equal = true) := by
  by_cases htype : e.typeOf l.value = e.typeOf r.value
  · rw [compareAtBoundary_of_type_eq htype, ← isResolved_congr htype]
    cases hl : e.isResolved l.value with
    | false => simp [htype]
    | true =>
      have himp : e.compare l r .equal = true →
          e.resolve table l.value = e.resolve table r.value :=
        resolve_eq_of_compare hbox hl htype
      simpa [Operator.testSame, Operator.isInequality] using himp
  · rw [compareAtBoundary_of_type_ne htype]
    cases e.isResolved l.value <;> cases e.isResolved r.value <;>
      simp [htype, Operator.testSame, Operator.isInequality]

theorem compare_equal_trans (hlm : l.sameBox m = true → l.value = m.value)
    (hmr : m.sameBox r = true → m.value = r.value)
    (htype : e.typeOf l.value = e.typeOf m.value) (htype' : e.typeOf m.value = e.typeOf r.value)
    (h : e.compare l m .equal = true) (h' : e.compare m r .equal = true) :
    e.compare l r .equal = true := by
  rw [compare_equal_iff (htype.trans htype')]
  obtain hbox | ⟨hcontent, hsame⟩ := (compare_equal_iff htype).mp h
  · obtain hbox' | ⟨hcontent', hsame'⟩ := (compare_equal_iff htype').mp h'
    · exact .inl (beq_iff_eq.mpr ((beq_iff_eq.mp hbox).trans (beq_iff_eq.mp hbox')))
    · exact .inr ⟨htype ▸ hcontent', hlm hbox ▸ hsame'⟩
  · obtain hbox' | ⟨-, hsame'⟩ := (compare_equal_iff htype').mp h'
    · exact .inr ⟨hcontent, hmr hbox' ▸ hsame⟩
    · exact .inr ⟨hcontent, Value.same_trans hsame hsame'⟩

/-- Equality at the boundary carries over from operand to operand, also where it goes
through null and references. -/
theorem compareAtBoundary_equal_trans (hcoherent : Box.Coherent [l, m, r])
    (h : e.compareAtBoundary l m .equal table = true)
    (h' : e.compareAtBoundary m r .equal table = true) :
    e.compareAtBoundary l r .equal table = true := by
  have hlm := hcoherent l (by simp) m (by simp)
  have hmr := hcoherent m (by simp) r (by simp)
  rw [compareAtBoundary_equal_iff (hcoherent l (by simp) r (by simp))]
  obtain ⟨hl, hm, heq⟩ | ⟨hl, hm, htype, hcompare⟩ := (compareAtBoundary_equal_iff hlm).mp h
  · obtain ⟨-, hr, heq'⟩ | ⟨hm', -⟩ := (compareAtBoundary_equal_iff hmr).mp h'
    · exact .inl ⟨hl, hr, heq.trans heq'⟩
    · exact absurd hm (by rw [hm']; exact Bool.false_ne_true)
  · obtain ⟨hm', -⟩ | ⟨-, hr, htype', hcompare'⟩ := (compareAtBoundary_equal_iff hmr).mp h'
    · exact absurd hm' (by rw [hm]; exact Bool.false_ne_true)
    · exact .inr ⟨hl, hr, htype.trans htype',
        compare_equal_trans hlm hmr htype htype' hcompare hcompare'⟩

end Equality

/-! ### Inequality -/

section Inequality

variable [Library]

/-- Of values that resolve, the rule of their kind never says that they are unequal. -/
theorem compare_unequal_of_isResolved (h : e.isResolved l.value = true) :
    e.compare l r .unequal = false := by
  rw [compare]
  split_ifs with hbox
  · rfl
  · obtain hnull | hext := isResolved_iff.mp h
    · rw [hnull]
      rfl
    · obtain ⟨kind, hkind⟩ := TypeTag.exists_kind hext
      rw [hkind]
      cases kind <;> rfl

/-- Of two other values of one kind, it says either that they are equal or that they are unequal. -/
theorem compare_unequal (h : e.typeOf l.value = e.typeOf r.value)
    (hplain : e.isResolved l.value = false) (hapart : ¬ l.ApartSymbols r) :
    e.compare l r .unequal = !e.compare l r .equal := by
  obtain ⟨hnull, hext⟩ := not_or.mp (mt isResolved_iff.mpr (Bool.eq_false_iff.mp hplain))
  rw [Bool.not_eq_true] at hext
  have hl := typeOf_eq_tag hext
  have hr := typeOf_eq_tag (h ▸ hext)
  rw [compare, compare]
  split_ifs with hbox
  · rfl
  · cases hkind : e.typeOf l.value with
    | boolean => exact Operator.test_unequal _
    | number => exact Operator.test_unequal _
    | string => exact Operator.test_unequal _
    | undefined => rfl
    | object => exact Operator.testSame_unequal _
    | null => exact absurd hkind hnull
    | symbol =>
      have hsymbol : l.ApartSymbols r :=
        ⟨Bool.eq_false_iff.mpr hbox, hl.symm.trans hkind, hr.symm.trans (h.symm.trans hkind)⟩
      exact absurd hsymbol hapart
    | unknown =>
      have htag := hl.symm.trans hkind
      cases hv : l.value <;> rw [hv] at htag <;> cases htag
    | _ =>
      rw [hkind] at hext
      cases hext

theorem compareAtBoundary_unequal (hbox : l.sameBox r = true → l.value = r.value)
    (hapart : ¬ l.ApartSymbols r) :
    e.compareAtBoundary l r .unequal table = !e.compareAtBoundary l r .equal table := by
  by_cases htype : e.typeOf l.value = e.typeOf r.value
  · rw [compareAtBoundary_of_type_eq htype, compareAtBoundary_of_type_eq htype]
    cases hl : e.isResolved l.value with
    | false => simpa using compare_unequal htype hl hapart
    | true =>
      -- What the rule of the kind calls equal also resolves alike, so the second look agrees.
      rw [compare_unequal_of_isResolved hl, Operator.testSame_unequal]
      cases hcompare : e.compare l r .equal with
      | false => simp
      | true =>
        have hresolve : e.resolve table l.value = e.resolve table r.value :=
          resolve_eq_of_compare hbox hl htype hcompare
        simp [hresolve, Operator.testSame, Operator.isInequality]
  · rw [compareAtBoundary_of_type_ne htype, compareAtBoundary_of_type_ne htype]
    split_ifs
    · exact Operator.testSame_unequal _
    · rfl

/-- Symbols have no rule of their own. -/
theorem compareAtBoundary_of_apartSymbols (h : l.ApartSymbols r) :
    e.compareAtBoundary l r op table = false := by
  have hsymbol : ∀ {v : Value}, v.tag = .symbol →
      e.typeOf v = .symbol ∧ e.isResolved v = false := by
    intro v hv
    cases v <;> cases hv
    exact ⟨rfl, rfl⟩
  obtain ⟨hbox, hl, hr⟩ := h
  obtain ⟨htype, hplain⟩ := hsymbol hl
  rw [compareAtBoundary_of_type_eq (htype.trans (hsymbol hr).1.symm), compare, hbox, htype, hplain]
  rfl

end Inequality

/-- **Comparison at the boundary is symmetric and transitive.** In every engine and with every
table, exchanged operands get the answer of the exchanged operator, an identity operator answers
like its equality operator, and equality carries over from operand to operand. -/
theorem boundary_comparison_coherent [Library] (e : Engine) (table : UInt64 → Option UInt64)
    {l m r : Box} (hcoherent : Box.Coherent [l, m, r]) :
    (∀ op, e.compareAtBoundary r l op.swap table = e.compareAtBoundary l r op table) ∧
      e.compareAtBoundary l r .identical table = e.compareAtBoundary l r .equal table ∧
      e.compareAtBoundary l r .notIdentical table = e.compareAtBoundary l r .unequal table ∧
      (e.compareAtBoundary l m .equal table = true → e.compareAtBoundary m r .equal table = true →
        e.compareAtBoundary l r .equal table = true) :=
  ⟨fun op => e.compareAtBoundary_swap l r op table,
    compareAtBoundary_of_alike Operator.alike_equal e l r table,
    compareAtBoundary_of_alike Operator.alike_unequal e l r table,
    compareAtBoundary_equal_trans hcoherent⟩

/-- References that resolve to nothing equal null, and so one another. -/
theorem boundary_comparison_coherent_dangling :
    let first := (Engine.new .standard).createExternal .object 7 0
    let second := first.2.createExternal .function 8 9
    second.2.compareAtBoundary first.1 second.1 .equal (fun _ => none) = true := by
  intro first second
  have hfirstMade : (Engine.new .standard).createReference .externalObject 7 0 = .ok first := rfl
  have hsecondMade : first.2.createReference .externalFunction 8 9 = .ok second := rfl
  have hmade : Steps (.new .standard) first.2 := (Step.createReference hfirstMade).steps
  have hmade' : Steps first.2 second.2 := (Step.createReference hsecondMade).steps
  have hsound : first.2.Sound := Reachable.sound ⟨.standard, hmade⟩
  have hsound' : second.2.Sound := Steps.sound hmade' hsound
  have hfirst := Steps.refers hmade' hsound (refers_createExternal (.new .standard) .object 7 0)
  have hsecond := refers_createExternal first.2 .function 8 9
  have hnone : ∀ v, second.2.resolve (fun _ => none) v = none := by
    intro v
    rw [resolve]
    cases second.2.toExternal v <;> rfl
  have hnull : second.2.isResolved Box.null.value = true := rfl
  have hresolved : second.2.isResolved first.1.value = true := hfirst.isResolved_eq hsound'
  have hresolved' : second.2.isResolved second.1.value = true := hsecond.isResolved_eq hsound'
  have hcoherent : Box.Coherent [first.1, Box.null, second.1] := Box.coherent_of_nodup (by decide)
  have hlaws := boundary_comparison_coherent second.2 (fun _ => none) hcoherent
  refine hlaws.2.2.2 ?_ ?_
  · exact (compareAtBoundary_equal_iff (by intro h; cases h)).mpr
      (.inl ⟨hresolved, hnull, (hnone _).trans (hnone _).symm⟩)
  · exact (compareAtBoundary_equal_iff (by intro h; cases h)).mpr
      (.inl ⟨hnull, hresolved', (hnone _).trans (hnone _).symm⟩)

/-- **Inequality at the boundary negates equality, but not of symbols.** In every engine and with
every table an inequality answers the opposite of its equality, unless the operands are symbols
in different boxes; of these no operator holds. -/
theorem boundary_inequality_negates [Library] (e : Engine) (table : UInt64 → Option UInt64)
    {l r : Box}
    (hcoherent : Box.Coherent [l, r]) :
    (e.compareAtBoundary l r .unequal table = !e.compareAtBoundary l r .equal table ↔
        ¬ l.ApartSymbols r) ∧
      (e.compareAtBoundary l r .notIdentical table = !e.compareAtBoundary l r .identical table ↔
        ¬ l.ApartSymbols r) ∧
      (l.ApartSymbols r → ∀ op, e.compareAtBoundary l r op table = false) := by
  have hnegates : e.compareAtBoundary l r .unequal table = !e.compareAtBoundary l r .equal table ↔
      ¬ l.ApartSymbols r := by
    refine ⟨fun hnot hapart => ?_, compareAtBoundary_unequal (hcoherent l (by simp) r (by simp))⟩
    rw [compareAtBoundary_of_apartSymbols hapart, compareAtBoundary_of_apartSymbols hapart] at hnot
    cases hnot
  refine ⟨hnegates, ?_, fun hapart op => compareAtBoundary_of_apartSymbols hapart⟩
  rw [compareAtBoundary_of_alike Operator.alike_equal,
    compareAtBoundary_of_alike Operator.alike_unequal]
  exact hnegates

/-- Of two NaN in different boxes one of the two operators holds. -/
theorem boundary_inequality_negates_nan :
    let nan : Value := .number (.ofBits 0x7ff8000000000000)
    (Engine.new .standard).compareAtBoundary ⟨4, nan⟩ ⟨5, nan⟩ .unequal some =
      !(Engine.new .standard).compareAtBoundary ⟨4, nan⟩ ⟨5, nan⟩ .equal some := by
  intro nan
  have hcoherent : Box.Coherent [⟨4, nan⟩, ⟨5, nan⟩] := Box.coherent_of_nodup (by decide)
  have hnumbers : ¬ Box.ApartSymbols ⟨4, nan⟩ ⟨5, nan⟩ := fun h => by cases h.2.1
  exact (boundary_inequality_negates (.new .standard) some hcoherent).1.mpr hnumbers

/-- Two symbols in different boxes are neither equal nor unequal. -/
theorem boundary_symbols_neither :
    let first := (Engine.new .standard).createSymbol none
    let second := first.2.createSymbol none
    second.2.Reachable ∧
      second.2.compareAtBoundary first.1 second.1 .equal some = false ∧
      second.2.compareAtBoundary first.1 second.1 .unequal some = false ∧
      second.2.compareAtBoundary first.1 second.1 .identical some = false ∧
      second.2.compareAtBoundary first.1 second.1 .notIdentical some = false := by
  intro first second
  have hsteps : Steps (.new .standard) second.2 :=
    (Step.createSymbol none).steps.tail (.createSymbol none)
  exact ⟨⟨.standard, hsteps⟩, by decide⟩

end Engine

end ValueEngine
