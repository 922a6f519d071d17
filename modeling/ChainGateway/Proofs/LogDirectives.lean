import ChainGateway.Proofs.Utf8
import ChainGateway.Settings.Log

namespace ChainGateway

namespace LogSettings

/-- What directives say of a component: its name, an equals sign and its level. -/
def part (e : String × String) : List Char := (moduleName e.1).toList ++ '=' :: e.2.toList

structure Unmarked (s : LogSettings) : Prop where
  level : ',' ∉ s.level.toList
  names : ∀ e ∈ s.components.entries, ',' ∉ e.1.toList ∧ '=' ∉ e.1.toList
  levels : ∀ e ∈ s.components.entries, ',' ∉ e.2.toList

def Unhyphened (s : LogSettings) : Prop := ∀ e ∈ s.components.entries, '-' ∉ e.1.toList

instance (s : LogSettings) : Decidable s.Unhyphened := inferInstanceAs (Decidable (∀ e ∈ _, _))

variable {s t : LogSettings}

theorem append_flatMap_part (first : List Char) (es : List (String × String)) :
    first ++ es.flatMap (fun e => ',' :: part e) = [','].intercalate (first :: es.map part) := by
  induction es generalizing first with
  | nil => simp
  | cons e es ih =>
    rw [List.map_cons, List.intercalate_cons_cons, ← ih (part e), List.flatMap_cons]
    simp

theorem toList_directives (s : LogSettings) :
    s.directives.toList =
      [','].intercalate (s.level.toList :: s.components.entries.map part) := by
  rw [← append_flatMap_part, directives, String.toList_append, String.toList_join,
    List.flatMap_map]
  simp [part]

theorem not_mem_moduleName {mark : Char} (hmark : mark ≠ '_') {name : String}
    (h : mark ∉ name.toList) : mark ∉ (moduleName name).toList := by
  rw [moduleName, String.toList_ofList]
  intro hmem
  obtain ⟨c, hc, heq⟩ := List.mem_map.mp hmem
  split_ifs at heq
  · exact hmark heq.symm
  · exact h (heq ▸ hc)

theorem moduleName_of_not_mem {name : String} (h : '-' ∉ name.toList) : moduleName name = name := by
  have hchars : name.toList.map (fun c => if c = '-' then '_' else c) = name.toList.map id :=
    List.map_congr_left fun c hc => if_neg fun heq : c = '-' => h (heq ▸ hc)
  rw [moduleName, hchars, List.map_id, String.ofList_toList]

theorem comma_not_mem_part (h : s.Unmarked) {e : String × String} (he : e ∈ s.components.entries) :
    ',' ∉ part e := by
  intro hmem
  obtain hname | hlevel := List.mem_append.mp hmem
  · exact not_mem_moduleName (by decide) (h.names e he).1 hname
  · obtain hmark | hlevel := List.mem_cons.mp hlevel
    · exact absurd hmark (by decide)
    · exact h.levels e he hlevel

/-- Commas stand nowhere but before the parts. -/
theorem splitOn_directives (h : s.Unmarked) :
    s.directives.toList.splitOn ',' = s.level.toList :: s.components.entries.map part := by
  rw [toList_directives]
  refine List.splitOn_intercalate ',' ?_ (List.cons_ne_nil _ _)
  refine List.forall_mem_cons.mpr ⟨h.level, fun cs hcs => ?_⟩
  obtain ⟨e, he, rfl⟩ := List.mem_map.mp hcs
  exact comma_not_mem_part h he

def cutFirst? (mark : Char) (cs : List Char) : Option (List Char × List Char) :=
  match cs.dropWhile (· ≠ mark) with
  | [] => none
  | _ :: behind => some (cs.takeWhile (· ≠ mark), behind)

theorem cutFirst?_append {mark : Char} {before : List Char} (h : mark ∉ before)
    (behind : List Char) : cutFirst? mark (before ++ mark :: behind) = some (before, behind) := by
  have hbefore : ∀ c ∈ before, decide (c ≠ mark) = true := fun c hc =>
    decide_eq_true fun heq => h (heq ▸ hc)
  rw [cutFirst?, List.dropWhile_append_of_pos hbefore, List.takeWhile_append_of_pos hbefore,
    List.dropWhile_cons_of_neg (by simp), List.takeWhile_cons_of_neg (by simp), List.append_nil]

theorem cutFirst?_part (h : s.Unmarked) {e : String × String} (he : e ∈ s.components.entries) :
    cutFirst? '=' (part e) = some ((moduleName e.1).toList, e.2.toList) :=
  cutFirst?_append (not_mem_moduleName (by decide) (h.names e he).2) e.2.toList

/-- What the directives say once they are cut at their commas, and the parts behind the global
level at their first equals sign. -/
structure ReadBack (s : LogSettings) : Prop where
  length_parts : (s.directives.toList.splitOn ',').length = s.components.entries.length + 1
  head_parts : (s.directives.toList.splitOn ',').head? = some s.level.toList
  tail_parts : (s.directives.toList.splitOn ',').tail.map (cutFirst? '=') =
    s.components.entries.map fun e =>
      some (e.1.toList.map fun c => if c = '-' then '_' else c, e.2.toList)
  byteOrder : s.components.entries.Pairwise fun e f => Text.utf8 e.1 < Text.utf8 f.1

theorem readBack_of_unmarked (h : s.Unmarked) : s.ReadBack := by
  have hparts := splitOn_directives h
  refine ⟨?_, ?_, ?_, s.components.ascending.imp Text.utf8_lt_utf8⟩
  · rw [hparts, List.length_cons, List.length_map]
  · rw [hparts, List.head?_cons]
  · rw [hparts, List.tail_cons, List.map_map]
    refine List.map_congr_left fun e he => ?_
    rw [Function.comp_apply, cutFirst?_part h he, moduleName, String.toList_ofList]

theorem entries_eq_of_parts (hs : s.Unmarked) (ht : t.Unmarked) (hs' : s.Unhyphened)
    (ht' : t.Unhyphened)
    (h : s.components.entries.map part = t.components.entries.map part) :
    s.components.entries = t.components.entries := by
  have hcut {u : LogSettings} (hu : u.Unmarked) (hu' : u.Unhyphened) :
      (u.components.entries.map part).map (cutFirst? '=') =
        u.components.entries.map fun e => some (e.1.toList, e.2.toList) := by
    rw [List.map_map]
    refine List.map_congr_left fun e he => ?_
    rw [Function.comp_apply, cutFirst?_part hu he, moduleName_of_not_mem (hu' e he)]
  refine (List.map_inj_right fun e f hef => ?_).mp ((hcut hs hs').symm.trans (h ▸ hcut ht ht'))
  obtain ⟨hname, hlevel⟩ := Prod.mk.inj (Option.some.inj hef)
  exact Prod.ext (String.toList_injective hname) (String.toList_injective hlevel)

theorem eq_of_directives_eq (hs : s.Unmarked) (ht : t.Unmarked) (hs' : s.Unhyphened)
    (ht' : t.Unhyphened) (h : s.directives = t.directives) :
    s.level = t.level ∧ s.components = t.components := by
  have hparts : s.level.toList :: s.components.entries.map part =
      t.level.toList :: t.components.entries.map part := by
    rw [← splitOn_directives hs, ← splitOn_directives ht, h]
  obtain ⟨hlevel, htail⟩ := List.cons.inj hparts
  exact ⟨String.toList_injective hlevel,
    OrderedMap.ext (entries_eq_of_parts hs ht hs' ht' htail)⟩

/-- Directives can be read back: no component is lost, merged or moved, whatever else the names
and levels hold, and without hyphens in the names the settings are told apart by their text. -/
theorem directives_readBack :
    (∀ s : LogSettings, s.Unmarked → s.ReadBack) ∧
    ∀ s t : LogSettings, s.Unmarked → t.Unmarked → s.Unhyphened → t.Unhyphened →
      (s.directives = t.directives ↔ s.level = t.level ∧ s.components = t.components) := by
  refine ⟨fun s hs => readBack_of_unmarked hs, fun s t hs ht hs' ht' => ⟨?_, ?_⟩⟩
  · exact eq_of_directives_eq hs ht hs' ht'
  · rintro ⟨hlevel, hcomponents⟩
    rw [directives, directives, hlevel, hcomponents]

def crossing : LogSettings where
  level := "info"
  components := OrderedMap.ofList [("", ""), ("a-b", "debug"), ("a.b", "x=y")]
  json := false

def single (name level : String) : LogSettings := ⟨"info", OrderedMap.ofList [(name, level)], false⟩

theorem directives_readBack_crossing :
    crossing.Unmarked ∧ crossing.ReadBack ∧
      crossing.directives = "info,=,a_b=debug,a.b=x=y" ∧
      (single "a" "b=c").directives ≠ (single "a.b" "c").directives := by
  have hmarks : crossing.Unmarked := ⟨by decide +kernel, by decide +kernel, by decide +kernel⟩
  refine ⟨hmarks, directives_readBack.1 crossing hmarks, by decide +kernel, fun h => ?_⟩
  have hequal := (directives_readBack.2 (single "a" "b=c") (single "a.b" "c")
    ⟨by decide +kernel, by decide +kernel, by decide +kernel⟩
    ⟨by decide +kernel, by decide +kernel, by decide +kernel⟩
    (by decide +kernel) (by decide +kernel)).mp h
  exact absurd hequal.2 (by decide +kernel)

end LogSettings

end ChainGateway
