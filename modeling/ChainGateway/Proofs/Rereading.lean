import ChainGateway.Proofs.ValueSkip

namespace ChainGateway.Json

theorem embedding?_of_eq {k : String} (h : k = embeddingName) (v : Json)
    (rest : List (String × Json)) : embedding? ((k, v) :: rest) = some (v, rest.length) := if_pos h

theorem embedding?_of_ne {k : String} (h : k ≠ embeddingName) (v : Json)
    (rest : List (String × Json)) : embedding? ((k, v) :: rest) = none := if_neg h

/-- The values in which no object embeds a text. -/
inductive Plain : Json → Prop where
  | null : Plain null
  | bool (b : Bool) : Plain (bool b)
  | integer (n : Int) : Plain (integer n)
  | double (x : Decimal.Binary64) : Plain (double x)
  | string (s : String) : Plain (string s)
  | array {items : List Json} : (∀ v ∈ items, Plain v) → Plain (array items)
  | object {members : List (String × Json)} : embedding? members = none →
      (∀ m ∈ members, Plain m.2) → Plain (object members)

theorem Plain.of_exact {v : Json} (h : Exact v) : v.Plain := by
  induction h with
  | null => exact .null
  | bool b => exact .bool b
  | integer _ => exact .integer _
  | string s => exact .string s
  | array _ ih => exact .array ih
  | object _ hembeds _ ih => exact .object hembeds ih

theorem sorted_of_exact {v : Json} (h : Exact v) : v.sorted = v := by
  induction h with
  | null | bool _ | integer _ | string _ => simp only [sorted]
  | array _ ih => exact sorted_array_eq_iff.mpr ih
  | object hascending _ _ ih => exact sorted_object_eq_iff.mpr ⟨hascending, ih⟩

theorem nesting_sorted_le (v : Json) : nesting v.sorted ≤ nesting v := by
  induction v using Json.induction with
  | null | bool _ | integer _ | double _ | string _ => simp only [sorted, Nat.le_refl]
  | array vs ih =>
    rw [sorted, sortedItems_eq_map]
    refine Nat.succ_le_succ (nestingItems_le fun w hw => ?_)
    obtain ⟨v, hv, rfl⟩ := List.mem_map.mp hw
    exact Nat.le_trans (ih v hv) (nesting_le_of_mem_items hv)
  | object ms ih =>
    rw [sorted, ofMembers, sortedMembers_eq_map]
    refine Nat.succ_le_succ (nestingMembers_le fun n hn => ?_)
    obtain ⟨m, hm, rfl⟩ := List.mem_map.mp (OrderedMap.mem_of_mem_ofList hn)
    exact Nat.le_trans (ih m hm) (nesting_le_of_mem_members hm)

/-- The values whose members are in order and in which no object embeds a text. -/
structure Steady (v : Json) : Prop where
  sorted_eq : v.sorted = v
  plain : v.Plain

theorem Steady.of_exact {v : Json} (h : Exact v) : v.Steady := ⟨sorted_of_exact h, .of_exact h⟩

theorem exact_of_steady {v : Json} (h : Integral v) (hv : v.Steady) : Exact v := by
  obtain ⟨hsorted, hplain⟩ := hv
  induction h with
  | null => exact .null
  | bool b => exact .bool b
  | integer hn => exact .integer hn
  | string s => exact .string s
  | array _ ih =>
    have hitems := sorted_array_eq_iff.mp hsorted
    cases hplain with
    | array hplain => exact .array fun v hv => ih v hv (hitems v hv) (hplain v hv)
  | object _ ih =>
    obtain ⟨hascending, hmembers⟩ := sorted_object_eq_iff.mp hsorted
    cases hplain with
    | object hembeds hplain =>
      exact .object hascending hembeds fun m hm => ih m hm (hmembers m hm) (hplain m hm)

section

variable {whole : List UInt8 → Except Fault Json}

theorem unembed_eq_ok_iff {v w : Json} {besides : Nat} : unembed whole v besides = .ok w ↔
    besides = 0 ∧ ∃ text, v = .string text ∧ whole (Text.utf8 text) = .ok w := by
  cases v with
  | string text =>
    have hunembed : unembed whole (.string text) besides =
        (whole (Text.utf8 text)).mapError Fault.asCause >>= fun v =>
          if besides = 0 then .ok v
          else .error (.wrongLength (besides + 1) "fewer elements in map") := rfl
    rw [hunembed]
    cases hwhole : whole (Text.utf8 text) with
    | ok v =>
      change (if besides = 0 then _ else _) = _ ↔ _
      split_ifs with h <;> simp [h, hwhole]
    | error fault => simp [Except.mapError, hwhole, bind, Except.bind]
  | _ => exact iff_of_false nofun fun h => by simpa using h.2

theorem bind_both_eq_ok_iff {α β γ : Type} {x : Except Cause α} {y : Except Cause β}
    {f : α → β → γ} {c : γ} :
    (do return f (← x) (← y) : Except Cause γ) = .ok c ↔
      ∃ a, x = .ok a ∧ ∃ b, y = .ok b ∧ f a b = c := by
  cases x with
  | error cause => simp [bind, Except.bind]
  | ok a => cases y <;> simp [bind, Except.bind, pure, Except.pure]

theorem rereadItems_eq_ok_iff {vs ws : List Json} : rereadItems whole vs = .ok ws ↔
    List.Forall₂ (fun v w => reread whole v = .ok w) vs ws := by
  induction vs generalizing ws with
  | nil => simp [rereadItems, eq_comm]
  | cons v vs ih =>
    rw [rereadItems, bind_both_eq_ok_iff, List.forall₂_cons_left_iff]
    simp only [ih]
    constructor
    · rintro ⟨w, hw, ws', hws, rfl⟩
      exact ⟨w, ws', hw, hws, rfl⟩
    · rintro ⟨w, ws', hw, hws, rfl⟩
      exact ⟨w, hw, ws', hws, rfl⟩

theorem rereadMembers_eq_ok_iff {ms ns : List (String × Json)} :
    rereadMembers whole ms = .ok ns ↔
      List.Forall₂ (fun m n => n.1 = m.1 ∧ reread whole m.2 = .ok n.2) ms ns := by
  induction ms generalizing ns with
  | nil => simp [rereadMembers, eq_comm]
  | cons m ms ih =>
    rw [rereadMembers, bind_both_eq_ok_iff (f := fun w ns => (m.1, w) :: ns),
      List.forall₂_cons_left_iff]
    simp only [ih]
    constructor
    · rintro ⟨w, hw, ns', hns, rfl⟩
      exact ⟨(m.1, w), ns', ⟨rfl, hw⟩, hns, rfl⟩
    · rintro ⟨n, ns', ⟨hn, hw⟩, hns, rfl⟩
      exact ⟨n.2, hw, ns', hns, hn ▸ rfl⟩

theorem exists_of_forall₂_of_mem_right {α β : Type} {R : α → β → Prop} {as : List α} {bs : List β}
    (h : List.Forall₂ R as bs) {b : β} (hb : b ∈ bs) : ∃ a ∈ as, R a b := by
  induction h with
  | nil => cases hb
  | cons hab _ ih =>
    obtain rfl | hb := List.mem_cons.mp hb
    · exact ⟨_, List.mem_cons_self, hab⟩
    · obtain ⟨a, ha, hab⟩ := ih hb
      exact ⟨a, List.mem_cons_of_mem _ ha, hab⟩

theorem reread_array_eq_ok_iff {vs : List Json} {w : Json} : reread whole (.array vs) = .ok w ↔
    ∃ ws, List.Forall₂ (fun v w => reread whole v = .ok w) vs ws ∧ w = .array ws := by
  simp only [reread, ← rereadItems_eq_ok_iff]
  cases rereadItems whole vs <;> simp [Except.map, eq_comm]

theorem reread_object_eq_ok_iff {ms : List (String × Json)} (h : embedding? ms = none) {w : Json} :
    reread whole (.object ms) = .ok w ↔
      ∃ ns, List.Forall₂ (fun m n => n.1 = m.1 ∧ reread whole m.2 = .ok n.2) ms ns ∧
        w = ofMembers ns := by
  simp only [reread, h, ← rereadMembers_eq_ok_iff]
  cases rereadMembers whole ms <;> simp [Except.map, eq_comm]

theorem reread_embedding_eq_ok_iff {ms : List (String × Json)} {v w : Json} {besides : Nat}
    (h : embedding? ms = some (v, besides)) : reread whole (.object ms) = .ok w ↔
      besides = 0 ∧ ∃ text, v = .string text ∧ whole (Text.utf8 text) = .ok w := by
  simp only [reread, h, unembed_eq_ok_iff]

/-- Where nothing is embedded, no more is done than to put members in order. -/
theorem reread_of_plain {v : Json} (h : v.Plain) : reread whole v = .ok v.sorted := by
  induction h with
  | null | bool _ | integer _ | double _ | string _ => simp only [reread, sorted]
  | array _ ih =>
    rw [reread_array_eq_ok_iff, sorted, sortedItems_eq_map]
    exact ⟨_, List.forall₂_map_right_iff.mpr (List.forall₂_same.mpr ih), rfl⟩
  | object hembeds _ ih =>
    rw [reread_object_eq_ok_iff hembeds, sorted, sortedMembers_eq_map]
    refine ⟨_, List.forall₂_map_right_iff.mpr (List.forall₂_same.mpr fun m hm => ?_), rfl⟩
    exact ⟨rfl, ih m hm⟩

theorem reread_of_steady {v : Json} (h : v.Steady) : reread whole v = .ok v := by
  rw [reread_of_plain h.plain, h.sorted_eq]

/-- Whatever is reread has its members in order, if embedded texts give such values. -/
theorem sorted_of_reread (hwhole : ∀ text v, whole text = .ok v → v.sorted = v) {d w : Json}
    (h : reread whole d = .ok w) : w.sorted = w := by
  induction d using Json.induction generalizing w with
  | null | bool _ | integer _ | double _ | string _ =>
    simp only [reread, Except.ok.injEq] at h
    simp only [← h, sorted]
  | array ds ih =>
    obtain ⟨ws, hall, rfl⟩ := reread_array_eq_ok_iff.mp h
    refine sorted_array_eq_iff.mpr fun w hw => ?_
    obtain ⟨d, hd, hread⟩ := exists_of_forall₂_of_mem_right hall hw
    exact ih d hd hread
  | object ms ih =>
    cases hembeds : embedding? ms with
    | some found =>
      obtain ⟨-, text, -, hvalue⟩ := (reread_embedding_eq_ok_iff hembeds).mp h
      exact hwhole _ _ hvalue
    | none =>
      obtain ⟨ns, hall, rfl⟩ := (reread_object_eq_ok_iff hembeds).mp h
      refine sorted_ofMembers fun n hn => ?_
      obtain ⟨m, hm, -, hread⟩ := exists_of_forall₂_of_mem_right hall hn
      exact ih m hm hread

end

end ChainGateway.Json
