namespace ChainGateway

class OrderedKey (κ : Type) extends LT κ where
  decidableLT : DecidableLT κ
  irrefl (a : κ) : ¬ a < a
  trans {a b c : κ} : a < b → b < c → a < c
  eq_of_not_lt {a b : κ} : ¬ a < b → ¬ b < a → a = b

attribute [reducible, instance] OrderedKey.decidableLT

instance : OrderedKey String where
  decidableLT := inferInstance
  irrefl a := String.lt_irrefl a
  trans h₁ h₂ := String.lt_trans h₁ h₂
  eq_of_not_lt h₁ h₂ := String.le_antisymm (String.not_lt.1 h₂) (String.not_lt.1 h₁)

variable {κ α : Type} [OrderedKey κ]

/-- Put an entry where its key belongs; an entry with the same key gives way. -/
def insertEntry (k : κ) (a : α) : List (κ × α) → List (κ × α)
  | [] => [(k, a)]
  | (k', a') :: rest =>
    if k < k' then (k, a) :: (k', a') :: rest
    else if k' < k then (k', a') :: insertEntry k a rest
    else (k, a) :: rest

def Ascending (entries : List (κ × α)) : Prop :=
  entries.Pairwise (fun e f => e.1 < f.1)

theorem mem_insertEntry {k : κ} {a : α} {entries : List (κ × α)} {e : κ × α}
    (h : e ∈ insertEntry k a entries) : e = (k, a) ∨ e ∈ entries := by
  fun_induction insertEntry k a entries with
  | case1 => simpa using h
  | case2 => simpa using h
  | case3 k' a' rest _ _ ih =>
    rcases List.mem_cons.1 h with rfl | h
    · simp
    · rcases ih h with h | h
      · exact Or.inl h
      · exact Or.inr (List.mem_cons_of_mem _ h)
  | case4 k' a' rest _ _ =>
    rcases List.mem_cons.1 h with rfl | h
    · simp
    · exact Or.inr (List.mem_cons_of_mem _ h)

theorem ascending_insertEntry {entries : List (κ × α)} (h : Ascending entries) (k : κ) (a : α) :
    Ascending (insertEntry k a entries) := by
  unfold Ascending at *
  fun_induction insertEntry k a entries with
  | case1 => simp
  | case2 k' a' rest hlt =>
    refine List.pairwise_cons.2 ⟨fun e he => ?_, h⟩
    rcases List.mem_cons.1 he with rfl | he
    · exact hlt
    · exact OrderedKey.trans hlt ((List.pairwise_cons.1 h).1 e he)
  | case3 k' a' rest _ hlt ih =>
    obtain ⟨hall, hrest⟩ := List.pairwise_cons.1 h
    refine List.pairwise_cons.2 ⟨fun e he => ?_, ih hrest⟩
    rcases mem_insertEntry he with rfl | he
    · exact hlt
    · exact hall e he
  | case4 k' a' rest h₁ h₂ =>
    have : k = k' := OrderedKey.eq_of_not_lt h₁ h₂
    subst this
    obtain ⟨hall, hrest⟩ := List.pairwise_cons.1 h
    exact List.pairwise_cons.2 ⟨hall, hrest⟩

@[ext]
structure OrderedMap (κ α : Type) [OrderedKey κ] where
  entries : List (κ × α)
  ascending : Ascending entries

namespace OrderedMap

def empty : OrderedMap κ α := ⟨[], List.Pairwise.nil⟩

instance : Inhabited (OrderedMap κ α) := ⟨empty⟩

instance [DecidableEq κ] [DecidableEq α] : DecidableEq (OrderedMap κ α) := fun m n =>
  decidable_of_iff (m.entries = n.entries) ⟨OrderedMap.ext, fun h => h ▸ rfl⟩

def insert (m : OrderedMap κ α) (k : κ) (a : α) : OrderedMap κ α :=
  ⟨insertEntry k a m.entries, ascending_insertEntry m.ascending k a⟩

/-- The map of a list of entries, of which a later one replaces an earlier one of its key. -/
def ofList (entries : List (κ × α)) : OrderedMap κ α :=
  entries.foldl (fun m e => m.insert e.1 e.2) empty

def mapValues {β : Type} (f : α → β) (m : OrderedMap κ α) : OrderedMap κ β where
  entries := m.entries.map fun e => (e.1, f e.2)
  ascending := by
    unfold Ascending
    rw [List.pairwise_map]
    exact m.ascending

end OrderedMap

end ChainGateway
