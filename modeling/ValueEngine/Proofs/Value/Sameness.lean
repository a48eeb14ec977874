import ValueEngine.Proofs.Number.Rank
import ValueEngine.Value.Basic

/-! Sameness of values is equality of content. NaN has no content, which makes it the one
value that is not the same as itself; the sameness of redefinitions, under which
it is, compares contents where there may be none. -/

namespace ValueEngine.Value

/-- What sameness looks at. -/
inductive Content
  | undefined
  | null
  | bool (b : Bool)
  | number (rank : Int)
  | string (s : String)
  | symbol (id : ℕ)
  | object (id : ObjectId)

def content? : Value → Option Content
  | undefined => some .undefined
  | null => some .null
  | bool b => some (.bool b)
  | number x => (Number.rank? x).map .number
  | string s => some (.string s)
  | symbol s => some (.symbol s.id)
  | object id => some (.object id)

variable {u v w : Value}

theorem sameOrBothNaN_iff : v.sameOrBothNaN w = true ↔ v.content? = w.content? := by
  cases v with
  | number x =>
    cases w with
    | number y =>
      change (Number.isNaN x && Number.isNaN y || Number.equal x y) = true ↔ _
      rw [← Number.rank?_eq_iff, content?, content?]
      cases Number.rank? x <;> cases Number.rank? y <;> simp
    | _ => simp [sameOrBothNaN, same, content?]
  | _ =>
    cases w with
    | number y => cases hy : Number.rank? y <;> simp [sameOrBothNaN, same, content?, hy]
    | _ => simp [sameOrBothNaN, same, content?]

theorem same_iff : v.same w = true ↔ v.content?.isSome ∧ v.content? = w.content? := by
  cases v with
  | number x =>
    cases w with
    | number y =>
      change Number.equal x y = true ↔ _
      rw [Number.equal_iff, content?, content?]
      cases Number.rank? x <;> cases Number.rank? y <;> simp [eq_comm]
    | _ => simp [same, content?]
  | _ =>
    cases w with
    | number y => cases hy : Number.rank? y <;> simp [same, content?, hy]
    | _ => simp [same, content?]

theorem same_comm (v w : Value) : v.same w = w.same v := by
  rw [Bool.eq_iff_iff, same_iff, same_iff]
  constructor <;> rintro ⟨hsome, heq⟩
  · exact ⟨heq ▸ hsome, heq.symm⟩
  · exact ⟨heq ▸ hsome, heq.symm⟩

theorem same_trans (h : u.same v = true) (h' : v.same w = true) : u.same w = true := by
  obtain ⟨hsome, huv⟩ := same_iff.mp h
  exact same_iff.mpr ⟨hsome, huv.trans (same_iff.mp h').2⟩

/-- No program can tell the values apart: symbols and objects are the same ones, numbers have the
same bits or are both NaN, and other values are equal. -/
def Indistinct : Value → Value → Prop
  | number x, number y =>
    (Number.isNaN x = true ∧ Number.isNaN y = true) ∨ x.toBits = y.toBits
  | symbol s, symbol t => s.id = t.id
  | v, w => v = w

def isZero : Value → Bool
  | number x => Number.isZero x
  | _ => false

/-- Of values with the same content, only zeros can be told apart. -/
theorem indistinct_or_isZero (h : v.content? = w.content?) :
    v.Indistinct w ∨ v.isZero = true ∧ w.isZero = true := by
  cases v with
  | number x =>
    cases w with
    | number y =>
      have hrank : Number.rank? x = Number.rank? y := by
        cases hx : Number.rank? x <;> cases hy : Number.rank? y <;> simp_all [content?]
      obtain hnan | hzero | hbits := Number.toBits_eq_of_rank? hrank
      · exact .inl (.inl hnan)
      · exact .inr hzero
      · exact .inl (.inr hbits)
    | _ => cases hx : Number.rank? x <;> simp [content?, hx] at h
  | _ =>
    cases w with
    | number y => cases hy : Number.rank? y <;> simp [content?, hy] at h
    | _ => simp_all [content?, Indistinct]

end ValueEngine.Value
