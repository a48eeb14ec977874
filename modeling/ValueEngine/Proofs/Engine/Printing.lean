import ValueEngine.Engine.Printing
import ValueEngine.Proofs.Engine.Requests
import ValueEngine.Proofs.Value.Style

/-! Texts of values and the limit on their depth. The display text and the inspection text are
what their styles give under the limit; they are the texts without a limit wherever no more
containers are nested than the limit, and what lies deeper than the limit never shows: graphs
that agree above the limit, and in the class of the objects there, have the same inspection
text. Nothing is asked of the graph. It may contain itself, in which case there is no text
without a limit, and the one under the limit is there nonetheless. -/

namespace ValueEngine

namespace Engine

variable {e e' : Engine} {id id' : ObjectId} {v v' u : Value} {vs : List Value}
  {p p' : Property} {room : ℕ} {f g : Value → String} {a a' : Array Value} {c : Callable}

def items? (e : Engine) : Value → Option (List Value)
  | .object id => (e.object id).elements?.map (·.toList)
  | _ => none

/-- The enumerable properties of an object, in their order. -/
def listing (e : Engine) (id : ObjectId) : List Property :=
  (e.object id).properties.toList.filter (·.flags.enumerable)

/-- What inspection goes into: the elements of an array, and the values that the enumerable
properties of a plain object hold. -/
def holdings? (e : Engine) : Value → Option (List Value)
  | .object id =>
    match (e.object id).payload with
    | .function _ => none
    | .array a => some a.toList
    | .plain => some ((e.listing id).filterMap (·.slot.value?))
  | _ => none

section Objects

theorem inspectWithin_function (h : (e.object id).payload = .function c) (room : ℕ) :
    e.inspectWithin room (.object id) = "[Function]" := by
  unfold inspectWithin
  simp only [h]

theorem inspectWithin_zero (e : Engine) (id : ObjectId) :
    e.inspectWithin 0 (.object id) = "[" ++ (e.object id).payload.name ++ "]" := by
  unfold inspectWithin
  cases (e.object id).payload <;> rfl

theorem inspectWithin_array_succ (h : (e.object id).payload = .array a) (room : ℕ) :
    e.inspectWithin (room + 1) (.object id) =
      bracketed "[" "]" (a.toList.map (e.inspectWithin room)) := by
  conv_lhs => unfold inspectWithin
  simp only [h]

theorem inspectWithin_plain_succ (h : (e.object id).payload = .plain) (room : ℕ) :
    e.inspectWithin (room + 1) (.object id) =
      bracketed "\x7b" "\x7d" ((e.listing id).map (entryText (e.inspectWithin room))) := by
  conv_lhs => unfold inspectWithin
  simp only [h, listing]

end Objects

/-! ### The two styles -/

section Styles

theorem entryText_eq (hkey : p.key = p'.key)
    (hslot : p.slot.value?.isSome = p'.slot.value?.isSome)
    (h : ∀ u u', p.slot.value? = some u → p'.slot.value? = some u' → f u = g u') :
    entryText f p = entryText g p' := by
  unfold entryText
  rw [hkey]
  cases hp : p.slot with
  | data u =>
    cases hp' : p'.slot with
    | data u' =>
      have hu := h u u' (by rw [hp, Slot.value?]) (by rw [hp', Slot.value?])
      dsimp only
      rw [hu]
    | accessor => simp [hp, hp', Slot.value?] at hslot
  | accessor =>
    cases hp' : p'.slot with
    | data u' => simp [hp, hp', Slot.value?] at hslot
    | accessor => rfl

theorem items?_array (h : (e.object id).payload = .array a) :
    e.items? (.object id) = some a.toList := by
  rw [items?, Object.elements?, h]
  rfl

theorem holdings?_array (h : (e.object id).payload = .array a) :
    e.holdings? (.object id) = some a.toList := by
  rw [holdings?, h]

theorem items?_eq_some (h : e.items? v = some vs) :
    ∃ id a, v = .object id ∧ (e.object id).payload = .array a ∧ vs = a.toList := by
  cases v with
  | object id =>
    obtain ⟨a, ha, rfl⟩ := Option.map_eq_some_iff.mp h
    rw [Object.elements?.eq_def] at ha
    cases hpayload : (e.object id).payload with
    | array b =>
      rw [hpayload] at ha
      cases ha
      exact ⟨id, a, rfl, hpayload, rfl⟩
    | _ =>
      rw [hpayload] at ha
      cases ha
  | _ => cases h

theorem holdings?_eq_some (h : e.holdings? v = some vs) :
    ∃ id, v = .object id ∧ ((∃ a, (e.object id).payload = .array a ∧ vs = a.toList) ∨
      (e.object id).payload = .plain ∧ vs = (e.listing id).filterMap (·.slot.value?)) := by
  cases v with
  | object id =>
    rw [holdings?] at h
    cases hpayload : (e.object id).payload with
    | function c =>
      rw [hpayload] at h
      cases h
    | array a =>
      rw [hpayload] at h
      cases h
      exact ⟨id, rfl, .inl ⟨a, hpayload, rfl⟩⟩
    | plain =>
      rw [hpayload] at h
      cases h
      exact ⟨id, rfl, .inr ⟨hpayload, rfl⟩⟩
  | _ => cases h

/-- Display texts. At the limit an array has no text, and undefined and null elements never
have one. -/
def displayStyle (e : Engine) : Style where
  parts := e.items?
  flat
    | .object id =>
      match (e.object id).payload with
      | .function _ => "function () \x7b [native code] \x7d"
      | _ => "[object Object]"
    | v => v.plainText
  cut _ := ""
  whole v text :=
    ",".intercalate (((e.items? v).getD []).map fun u => if u.isNothing then "" else text u)
  whole_congr := by
    intro v vs f g hparts h
    rw [hparts, Option.getD_some]
    exact congrArg _ (List.map_congr_left fun u hu => by rw [h u hu])

/-- The inspection text of a container from those of its parts. -/
def assembled (e : Engine) (text : Value → String) : Value → String
  | .object id =>
    match (e.object id).payload with
    | .array a => bracketed "[" "]" (a.toList.map text)
    | _ => bracketed "\x7b" "\x7d" ((e.listing id).map (entryText text))
  | _ => ""

theorem assembled_congr (hparts : e.holdings? v = some vs) (h : ∀ u ∈ vs, f u = g u) :
    e.assembled f v = e.assembled g v := by
  obtain ⟨id, rfl, ⟨a, ha, rfl⟩ | ⟨hplain, rfl⟩⟩ := holdings?_eq_some hparts
  · simp only [assembled, ha, List.map_congr_left h]
  · have hentries : ∀ p ∈ e.listing id, entryText f p = entryText g p := by
      refine fun p hp => entryText_eq rfl rfl fun u u' hu hu' => ?_
      cases hu.symm.trans hu'
      exact h u (List.mem_filterMap.mpr ⟨p, hp, hu⟩)
    simp only [assembled, hplain, List.map_congr_left hentries]

/-- Inspection texts. At the limit a container shows its class. -/
def inspectStyle (e : Engine) : Style where
  parts := e.holdings?
  flat
    | .string s => Text.quote s
    | .object _ => "[Function]"
    | v => v.plainText
  cut
    | .object id => "[" ++ (e.object id).payload.name ++ "]"
    | _ => ""
  whole v text := e.assembled text v
  whole_congr := assembled_congr

theorem displayWithin_realised (e : Engine) : e.displayStyle.Realised e.displayWithin where
  flat := by
    intro room v h
    unfold displayWithin
    cases v with
    | object id =>
      cases hpayload : (e.object id).payload with
      | array a => cases (items?_array hpayload).symm.trans h
      | _ => simp only [displayStyle, hpayload]
    | _ => rfl
  cut := by
    intro v vs h
    obtain ⟨id, a, rfl, ha, -⟩ := items?_eq_some h
    unfold displayWithin
    simp only [displayStyle, ha]
  whole := by
    intro room v vs h
    have hitems : e.items? v = some vs := h
    obtain ⟨id, a, rfl, ha, rfl⟩ := items?_eq_some hitems
    rw [displayWithin, ha]
    simp only [displayStyle, hitems, Option.getD_some]

theorem inspectWithin_realised (e : Engine) : e.inspectStyle.Realised e.inspectWithin where
  flat := by
    intro room v h
    cases v with
    | object id =>
      have hnone : e.holdings? (.object id) = none := h
      cases hpayload : (e.object id).payload with
      | function c => exact inspectWithin_function hpayload room
      | _ =>
        rw [holdings?, hpayload] at hnone
        cases hnone
    | _ =>
      unfold inspectWithin
      rfl
  cut := by
    intro v vs h
    obtain ⟨id, rfl, -⟩ := holdings?_eq_some h
    exact inspectWithin_zero e id
  whole := by
    intro room v vs h
    obtain ⟨id, rfl, ⟨a, ha, -⟩ | ⟨hplain, -⟩⟩ := holdings?_eq_some h
    · simp only [inspectWithin_array_succ ha, inspectStyle, assembled, ha]
    · simp only [inspectWithin_plain_succ hplain, inspectStyle, assembled, hplain]

end Styles

/-! ### Graphs that agree above the limit -/

section Agreement

/-- The graphs of two values in two engines, unfolded from the values, agree: so many objects deep
in the class, in the elements of arrays and in what is enumerable of plain objects, and the
objects below these in the class. A value that is no object belongs to the object that holds it;
of symbols the description counts. -/
inductive AgreeWithin (e e' : Engine) : (room : ℕ) → Value → Value → Prop
  | value {room : ℕ} {v : Value} (h : v.object? = none) : AgreeWithin e e' room v v
  | symbol {room : ℕ} {s s' : Symbol} (h : s.description = s'.description) :
    AgreeWithin e e' room (.symbol s) (.symbol s')
  | cut {id id' : ObjectId} (h : (e.object id).payload.name = (e'.object id').payload.name) :
    AgreeWithin e e' 0 (.object id) (.object id')
  | function {room : ℕ} {id id' : ObjectId} {c c' : Callable}
    (h : (e.object id).payload = .function c) (h' : (e'.object id').payload = .function c') :
    AgreeWithin e e' (room + 1) (.object id) (.object id')
  | array {room : ℕ} {id id' : ObjectId} {a a' : Array Value}
    (h : (e.object id).payload = .array a) (h' : (e'.object id').payload = .array a')
    (hsize : a.size = a'.size)
    (helements : ∀ (i : ℕ) u u', a[i]? = some u → a'[i]? = some u' → AgreeWithin e e' room u u') :
    AgreeWithin e e' (room + 1) (.object id) (.object id')
  | plain {room : ℕ} {id id' : ObjectId}
    (h : (e.object id).payload = .plain) (h' : (e'.object id').payload = .plain)
    (hkeys : (e.listing id).map (fun p => (p.key, p.slot.value?.isSome)) =
      (e'.listing id').map fun p => (p.key, p.slot.value?.isSome))
    (hvalues : ∀ (i : ℕ) p p' u u', (e.listing id)[i]? = some p → (e'.listing id')[i]? = some p' →
      p.slot.value? = some u → p'.slot.value? = some u' → AgreeWithin e e' room u u') :
    AgreeWithin e e' (room + 1) (.object id) (.object id')

theorem inspectWithin_eq (h : AgreeWithin e e' room v v') :
    e.inspectWithin room v = e'.inspectWithin room v' := by
  induction h with
  | @value room v h =>
    cases v with
    | object id => cases h
    | _ =>
      unfold inspectWithin
      rfl
  | symbol h => simp [inspectWithin, Value.plainText, Symbol.display, h]
  | cut h => rw [inspectWithin_zero, inspectWithin_zero, h]
  | function h h' => rw [inspectWithin_function h, inspectWithin_function h']
  | @array room id id' a a' h h' hsize _ ih =>
    have htexts : a.toList.map (e.inspectWithin room) = a'.toList.map (e'.inspectWithin room) := by
      refine List.ext_getElem (by simpa using hsize) fun i hi hi' => ?_
      rw [List.getElem_map, List.getElem_map]
      exact ih i _ _ (by simp) (by simp)
    rw [inspectWithin_array_succ h, inspectWithin_array_succ h', htexts]
  | @plain room id id' h h' hkeys _ ih =>
    have htexts : (e.listing id).map (entryText (e.inspectWithin room)) =
        (e'.listing id').map (entryText (e'.inspectWithin room)) := by
      have hlength : (e.listing id).length = (e'.listing id').length := by
        simpa using congrArg List.length hkeys
      refine List.ext_getElem (by simpa using hlength) fun i hi hi' => ?_
      rw [List.length_map] at hi hi'
      have hentry : ((e.listing id)[i].key, (e.listing id)[i].slot.value?.isSome) =
          ((e'.listing id')[i].key, (e'.listing id')[i].slot.value?.isSome) := by
        simpa [hi, hi'] using congrArg (·[i]?) hkeys
      rw [List.getElem_map, List.getElem_map]
      exact entryText_eq (congrArg Prod.fst hentry) (congrArg Prod.snd hentry)
        fun u u' => ih i _ _ u u' (List.getElem?_eq_getElem hi) (List.getElem?_eq_getElem hi')
    rw [inspectWithin_plain_succ h, inspectWithin_plain_succ h', htexts]

end Agreement

end Engine

/-- **Texts go as deep as the limit and no deeper.** Printing under the limit always comes to an
end, whatever contains itself, and gives the display text and the inspection text. Where no path
from the value passes through more containers than the limit, these are also what printing without
a limit comes to. Two values whose graphs agree above the limit, and in the class of the objects at
the limit, have the same inspection text. -/
theorem texts_end_at_limit (e : Engine) (v : Value) :
    (∀ t, e.displayStyle.Prints printDepth 0 v t ↔ t = e.display v) ∧
      (∀ t, e.inspectStyle.Prints printDepth 0 v t ↔ t = e.inspect v) ∧
      (e.displayStyle.NestsAtMost printDepth v →
        ∀ t, e.displayStyle.Prints ⊤ 0 v t ↔ t = e.display v) ∧
      (e.inspectStyle.NestsAtMost printDepth v →
        ∀ t, e.inspectStyle.Prints ⊤ 0 v t ↔ t = e.inspect v) ∧
      ∀ e' v', Engine.AgreeWithin e e' printDepth v v' → e.inspect v = e'.inspect v' := by
  have hdisplay := e.displayWithin_realised
  have hinspect := e.inspectWithin_realised
  have hlimit : ((0 + printDepth : ℕ) : ℕ∞) = printDepth := by rw [Nat.zero_add]
  exact ⟨fun t => hdisplay.prints_iff hlimit.le (.inl hlimit.symm),
    fun t => hinspect.prints_iff hlimit.le (.inl hlimit.symm),
    fun h t => hdisplay.prints_iff le_top (.inr h), fun h t => hinspect.prints_iff le_top (.inr h),
    fun e' v' h => Engine.inspectWithin_eq h⟩

/-- A world with one array, which contains itself. -/
def World.looping : World Unit :=
  Request.runAll Host.idle [.newArray, .setElement ⟨2, .object 0⟩ 0 ⟨2, .object 0⟩]
    ⟨.new .standard, .empty, ()⟩

/-- A world with five arrays, each but the last one containing the next. -/
def World.nested : World Unit :=
  Request.runAll Host.idle
    (List.replicate 5 .newArray ++ (List.range 4).map fun i =>
      .setElement ⟨i + 2, .object i⟩ 0 ⟨i + 3, .object (i + 1)⟩)
    ⟨.new .standard, .empty, ()⟩

theorem World.looping_payload :
    (World.looping.engine.object 0).payload = .array #[.object 0] := rfl

theorem World.nested_payload : ∀ i : ℕ, i < 5 → (World.nested.engine.object i).payload =
    .array (if i < 4 then #[.object (i + 1)] else #[])
  | 0, _ | 1, _ | 2, _ | 3, _ | 4, _ => rfl

/-- The nesting of an array that contains itself has no bound. -/
theorem World.looping_nests (n : ℕ) :
    ¬ World.looping.engine.inspectStyle.NestsAtMost n (.object 0) := by
  have hparts := Engine.holdings?_array World.looping_payload
  induction n with
  | zero => exact fun h => nomatch h.parts_eq_none.symm.trans hparts
  | succ n ih =>
    intro h
    exact ih ((Style.nestsAtMost_succ_iff hparts).mp h _ (by simp))

theorem World.nested_nests {s : Style} (hs : ∀ i : ℕ, i < 5 → s.parts (.object i) =
      some (if i < 4 then #[.object (i + 1)] else #[]).toList) (n : ℕ) {i : ℕ} (hi : i + n = 4) :
    s.NestsAtMost (n + 1) (.object i) := by
  rw [Style.nestsAtMost_succ_iff (hs i (by omega))]
  induction n generalizing i with
  | zero =>
    rw [if_neg (by omega)]
    nofun
  | succ n ih =>
    rw [if_pos (by omega), List.forall_mem_singleton, Style.nestsAtMost_succ_iff (hs _ (by omega))]
    exact ih (by omega)

theorem World.looping_agrees (room : ℕ) {i : ℕ} (hi : i + room = 4) :
    Engine.AgreeWithin World.looping.engine World.nested.engine room (.object 0) (.object i) := by
  have hloop := World.looping_payload
  induction room generalizing i with
  | zero => exact .cut (by rw [hloop, World.nested_payload i (by omega)]; rfl)
  | succ room ih =>
    have hnested := World.nested_payload i (by omega)
    rw [if_pos (by omega)] at hnested
    refine .array hloop hnested rfl fun j u u' hu hu' => ?_
    cases j with
    | zero =>
      cases hu
      cases hu'
      exact ih (by omega)
    | succ j => simp at hu

/-- An array that contains itself is written like one that has as much above the limit, and never
without a limit; one array less nested shows in full. -/
theorem texts_end_at_limit_looping :
    let e := World.looping.engine
    let e' := World.nested.engine
    (e.Reachable ∧ ¬ ∃ t, e.inspectStyle.Prints ⊤ 0 (.object 0) t) ∧
      e.inspectStyle.Prints printDepth 0 (.object 0) "[ [ [ [ [Array] ] ] ] ]" ∧
      (Engine.AgreeWithin e e' printDepth (.object 0) (.object 0) ∧
        e'.inspect (.object 0) = "[ [ [ [ [Array] ] ] ] ]") ∧
      (e'.inspectStyle.NestsAtMost printDepth (.object 1) ∧
        e'.inspectStyle.Prints ⊤ 0 (.object 1) "[ [ [ [] ] ] ]") ∧
      e'.displayStyle.NestsAtMost printDepth (.object 1) ∧
        e'.displayStyle.Prints ⊤ 0 (.object 1) "" := by
  intro e e'
  have htext : e.inspect (.object 0) = "[ [ [ [ [Array] ] ] ] ]" := by decide +kernel
  have htext' : e'.inspect (.object 1) = "[ [ [ [] ] ] ]" := by decide +kernel
  have htext'' : e'.display (.object 1) = "" := by decide +kernel
  obtain ⟨-, hcut, -, -, hsame⟩ := texts_end_at_limit e (.object 0)
  obtain ⟨-, -, hdisplay, hinspect, -⟩ := texts_end_at_limit e' (.object 1)
  have hshown : e'.inspectStyle.NestsAtMost printDepth (.object 1) :=
    World.nested_nests (fun i hi => Engine.holdings?_array (World.nested_payload i hi)) 3 rfl
  have hshown' : e'.displayStyle.NestsAtMost printDepth (.object 1) :=
    World.nested_nests (fun i hi => Engine.items?_array (World.nested_payload i hi)) 3 rfl
  have hagree := World.looping_agrees printDepth (i := 0) rfl
  refine ⟨⟨Request.runAll_reachable .standard _, ?_⟩, (hcut _).mpr htext.symm,
    ⟨hagree, (hsame _ _ hagree).symm.trans htext⟩, ⟨hshown, (hinspect hshown _).mpr htext'.symm⟩,
    hshown', (hdisplay hshown' _).mpr htext''.symm⟩
  rw [e.inspectWithin_realised.exists_prints_iff]
  exact fun ⟨n, hn⟩ => World.looping_nests n hn

end ValueEngine
