import ChainGateway.Json.Basic
import Mathlib.Data.List.Nodup

namespace ChainGateway

variable {κ α : Type} [OrderedKey κ]

theorem nodup_keys_of_ascending {entries : List (κ × α)} (h : Ascending entries) :
    (entries.map Prod.fst).Nodup := by
  refine List.pairwise_map.mpr (h.imp fun {e f} hlt heq => ?_)
  rw [heq] at hlt
  exact OrderedKey.irrefl _ hlt

theorem eq_of_perm_of_ascending {entries entries' : List (κ × α)} (h : Ascending entries)
    (h' : Ascending entries') (hperm : entries.Perm entries') : entries = entries' :=
  hperm.eq_of_pairwise
    (fun e _ _ _ hef hfe => absurd (OrderedKey.trans hef hfe) (OrderedKey.irrefl e.1)) h h'

theorem perm_insertEntry {k : κ} {a : α} {entries : List (κ × α)}
    (h : ∀ e ∈ entries, e.1 ≠ k) : (insertEntry k a entries).Perm ((k, a) :: entries) := by
  fun_induction insertEntry k a entries with
  | case1 => exact .refl _
  | case2 => exact .refl _
  | case3 k' a' rest _ _ ih =>
    exact ((ih fun e he => h e (List.mem_cons_of_mem _ he)).cons _).trans (.swap _ _ _)
  | case4 k' a' rest hlt hgt =>
    exact absurd (OrderedKey.eq_of_not_lt hlt hgt).symm (h (k', a') List.mem_cons_self)

namespace OrderedMap

theorem perm_foldl_insert {entries : List (κ × α)} {m : OrderedMap κ α}
    (h : ((entries ++ m.entries).map Prod.fst).Nodup) :
    (entries.foldl (fun m e => m.insert e.1 e.2) m).entries.Perm (entries ++ m.entries) := by
  induction entries generalizing m with
  | nil => exact .refl _
  | cons e entries ih =>
    have hnew := (List.nodup_cons.mp h).1
    have hinsert : (m.insert e.1 e.2).entries.Perm (e :: m.entries) :=
      perm_insertEntry fun f hf heq =>
        hnew (heq ▸ List.mem_map_of_mem (List.mem_append_right entries hf))
    have hmoved : (entries ++ (m.insert e.1 e.2).entries).Perm (e :: (entries ++ m.entries)) :=
      (hinsert.append_left entries).trans List.perm_middle
    exact (ih ((hmoved.map Prod.fst).nodup_iff.mpr h)).trans hmoved

/-- A map has the entries it was made of, if no two of them have the same key. -/
theorem perm_ofList {entries : List (κ × α)} (h : (entries.map Prod.fst).Nodup) :
    (ofList entries).entries.Perm entries := by
  have hempty : entries ++ (empty : OrderedMap κ α).entries = entries := List.append_nil entries
  have hperm := perm_foldl_insert (hempty.symm ▸ h)
  rw [hempty] at hperm
  exact hperm

theorem ofList_eq_of_perm {entries : List (κ × α)} {m : OrderedMap κ α}
    (h : entries.Perm m.entries) : ofList entries = m := by
  have hnodup : (entries.map Prod.fst).Nodup :=
    (h.map Prod.fst).nodup_iff.mpr (nodup_keys_of_ascending m.ascending)
  exact OrderedMap.ext (eq_of_perm_of_ascending (ofList entries).ascending m.ascending
    ((perm_ofList hnodup).trans h))

theorem mem_foldl_insert {e : κ × α} {entries : List (κ × α)} {m : OrderedMap κ α}
    (h : e ∈ (entries.foldl (fun m e => m.insert e.1 e.2) m).entries) :
    e ∈ entries ∨ e ∈ m.entries := by
  induction entries generalizing m with
  | nil => exact Or.inr h
  | cons f entries ih =>
    obtain h | h := ih h
    · exact Or.inl (List.mem_cons_of_mem f h)
    · obtain rfl | h := mem_insertEntry h
      · exact Or.inl List.mem_cons_self
      · exact Or.inr h

theorem mem_of_mem_ofList {e : κ × α} {entries : List (κ × α)} (h : e ∈ (ofList entries).entries) :
    e ∈ entries :=
  (mem_foldl_insert h).resolve_right List.not_mem_nil

end OrderedMap

namespace Json

/-- What holds of every value without brackets, of a list if it holds of its items and of an object
if it holds of the values of its members, holds of all values. -/
@[elab_as_elim]
theorem induction {motive : Json → Prop} (null : motive null) (bool : ∀ b, motive (bool b))
    (integer : ∀ n, motive (integer n)) (double : ∀ x, motive (double x))
    (string : ∀ s, motive (string s))
    (array : ∀ items, (∀ v ∈ items, motive v) → motive (array items))
    (object : ∀ members : List (String × Json), (∀ m ∈ members, motive m.2) →
      motive (object members)) : (v : Json) → motive v
  | .null => null
  | .bool b => bool b
  | .integer n => integer n
  | .double x => double x
  | .string s => string s
  | .array items => array items fun v _ =>
    Json.induction null bool integer double string array object v
  | .object members => object members fun (_, v) _ =>
    Json.induction null bool integer double string array object v
termination_by v => sizeOf v
decreasing_by
  all_goals
    have hmem := List.sizeOf_lt_of_mem ‹_›
    simp at hmem ⊢
    omega

theorem sortedItems_eq_map (vs : List Json) : sortedItems vs = vs.map sorted := by
  induction vs with
  | nil => rfl
  | cons v vs ih => rw [sortedItems, ih, List.map_cons]

theorem sortedMembers_eq_map (ms : List (String × Json)) :
    sortedMembers ms = ms.map fun m => (m.1, m.2.sorted) := by
  induction ms with
  | nil => rfl
  | cons m ms ih => rw [sortedMembers, ih, List.map_cons]

theorem sorted_object_of_ascending {ms : List (String × Json)} (h : Ascending ms) :
    sorted (object ms) = object (ms.map fun m => (m.1, m.2.sorted)) := by
  have hascending : Ascending (ms.map fun m => (m.1, m.2.sorted)) := List.pairwise_map.mpr h
  rw [sorted, ofMembers, sortedMembers_eq_map,
    OrderedMap.ofList_eq_of_perm (m := ⟨_, hascending⟩) (.refl _)]

theorem sorted_object_eq_iff {ms : List (String × Json)} : sorted (object ms) = object ms ↔
    Ascending ms ∧ ∀ m ∈ ms, m.2.sorted = m.2 := by
  constructor
  · intro h
    have hms : Ascending ms := by
      rw [sorted, ofMembers] at h
      exact Json.object.inj h ▸ (OrderedMap.ofList _).ascending
    rw [sorted_object_of_ascending hms] at h
    refine ⟨hms, fun m hm => ?_⟩
    have hsame := List.map_inj_left.mp ((Json.object.inj h).trans (List.map_id ms).symm) m hm
    exact congrArg Prod.snd hsame
  · rintro ⟨hascending, hms⟩
    have hsame : ∀ m ∈ ms, (m.1, m.2.sorted) = m := fun m hm => Prod.ext rfl (hms m hm)
    rw [sorted_object_of_ascending hascending, List.map_congr_left hsame, List.map_id']

theorem sorted_array_eq_iff {vs : List Json} : sorted (array vs) = array vs ↔
    ∀ v ∈ vs, v.sorted = v := by
  rw [sorted, sortedItems_eq_map, Json.array.injEq]
  exact ⟨fun h => List.map_inj_left.mp (h.trans (List.map_id vs).symm),
    fun h => (List.map_congr_left h).trans (List.map_id vs)⟩

theorem sorted_ofMembers {ms : List (String × Json)} (h : ∀ m ∈ ms, m.2.sorted = m.2) :
    (ofMembers ms).sorted = ofMembers ms :=
  sorted_object_eq_iff.mpr ⟨OrderedMap.ascending _,
    fun m hm => h m (OrderedMap.mem_of_mem_ofList hm)⟩

/-- A way to put the members of objects in some order, at every depth. -/
structure Arranges (order : Json → Json) : Prop where
  null : order null = null
  bool (b : Bool) : order (bool b) = bool b
  integer (n : Int) : order (integer n) = integer n
  string (s : String) : order (string s) = string s
  array (vs : List Json) : order (array vs) = array (vs.map order)
  object {ms : List (String × Json)} : (ms.map Prod.fst).Nodup →
    ∃ ms', order (object ms) = Json.object ms' ∧ ms'.Perm (ms.map fun m => (m.1, order m.2))
  /-- Members that are in order stay there. -/
  fixed {v : Json} : v.sorted = v → order v = v

theorem arranges_id : Arranges id where
  null := rfl
  bool _ := rfl
  integer _ := rfl
  string _ := rfl
  array vs := congrArg Json.array (List.map_id vs).symm
  object {ms} _ := ⟨ms, rfl, .of_eq (List.map_id ms).symm⟩
  fixed _ := rfl

theorem arranges_sorted : Arranges sorted where
  null := by simp only [sorted]
  bool _ := by simp only [sorted]
  integer _ := by simp only [sorted]
  string _ := by simp only [sorted]
  array vs := by rw [sorted, sortedItems_eq_map]
  object {ms} h := by
    refine ⟨_, by rw [sorted, ofMembers], ?_⟩
    rw [sortedMembers_eq_map]
    refine OrderedMap.perm_ofList ?_
    rw [List.map_map]
    exact h
  fixed := id

end Json

end ChainGateway
