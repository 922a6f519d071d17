import ChainGateway.Proofs.ByteData
import ChainGateway.Proofs.HexSpelling
import Mathlib.Logic.Relator

namespace ChainGateway

def LastWith {α : Type} (p : α → Prop) (l : List α) (a : α) : Prop :=
  ∃ before after, l = before ++ a :: after ∧ p a ∧ ∀ b ∈ after, ¬ p b

section

variable {α : Type} {p : α → Prop} {l : List α} {a b : α}

theorem not_lastWith_nil : ¬ LastWith p [] a := by
  rintro ⟨before, after, h, -⟩
  cases before <;> cases h

theorem lastWith_cons_iff :
    LastWith p (b :: l) a ↔ LastWith p l a ∨ a = b ∧ p b ∧ ∀ c ∈ l, ¬ p c := by
  constructor
  · rintro ⟨before, after, h, ha, hafter⟩
    cases before with
    | nil =>
      obtain ⟨rfl, rfl⟩ := List.cons.inj h
      exact .inr ⟨rfl, ha, hafter⟩
    | cons d before =>
      obtain ⟨rfl, rfl⟩ := List.cons.inj h
      exact .inl ⟨before, after, rfl, ha, hafter⟩
  · rintro (⟨before, after, rfl, ha, hafter⟩ | ⟨rfl, ha, hafter⟩)
    · exact ⟨b :: before, after, rfl, ha, hafter⟩
    · exact ⟨[], l, rfl, ha, hafter⟩

theorem LastWith.mem (h : LastWith p l a) : a ∈ l ∧ p a := by
  obtain ⟨before, after, rfl, ha, -⟩ := h
  exact ⟨List.mem_append_right before List.mem_cons_self, ha⟩

theorem exists_lastWith (h : ∃ a ∈ l, p a) : ∃ a, LastWith p l a := by
  induction l with
  | nil => exact absurd h (by simp)
  | cons b l ih =>
    by_cases hl : ∃ a ∈ l, p a
    · obtain ⟨a, ha⟩ := ih hl
      exact ⟨a, lastWith_cons_iff.mpr (.inl ha)⟩
    · obtain ⟨a, ha, hp⟩ := h
      obtain rfl : a = b := (List.mem_cons.mp ha).resolve_right fun ha => hl ⟨a, ha, hp⟩
      exact ⟨a, lastWith_cons_iff.mpr (.inr ⟨rfl, hp, fun c hc hpc => hl ⟨c, hc, hpc⟩⟩)⟩

/-- Of members that ascend, the last is the one of the greatest name. -/
theorem lastWith_iff_of_ascending {β : Type} {ms : List (String × β)} (h : Ascending ms)
    {p : String × β → Prop} {e : String × β} :
    LastWith p ms e ↔ e ∈ ms ∧ p e ∧ ∀ f ∈ ms, p f → ¬ e.1 < f.1 := by
  constructor
  · rintro ⟨before, after, rfl, hp, hafter⟩
    refine ⟨by simp, hp, fun f hf hpf => ?_⟩
    obtain ⟨-, -, hbefore⟩ := List.pairwise_append.mp h
    obtain hf | hf := List.mem_append.mp hf
    · exact fun hlt => OrderedKey.irrefl _ (OrderedKey.trans hlt (hbefore f hf e (by simp)))
    · obtain rfl | hf := List.mem_cons.mp hf
      · exact OrderedKey.irrefl _
      · exact absurd hpf (hafter f hf)
  · rintro ⟨hmem, hp, hgreatest⟩
    obtain ⟨before, after, rfl⟩ := List.append_of_mem hmem
    refine ⟨before, after, rfl, hp, fun f hf hpf => ?_⟩
    obtain ⟨-, hlater, -⟩ := List.pairwise_append.mp h
    exact hgreatest f (by simp [hf]) hpf ((List.pairwise_cons.mp hlater).1 f hf)

end

section

variable {κ α : Type} [OrderedKey κ]

theorem mem_insertEntry_iff {k : κ} {a : α} {entries : List (κ × α)} (h : Ascending entries)
    {e : κ × α} : e ∈ insertEntry k a entries ↔ e = (k, a) ∨ e.1 ≠ k ∧ e ∈ entries := by
  fun_induction insertEntry k a entries with
  | case1 => simp
  | case2 k' a' rest hlt =>
    have hne : ∀ f ∈ (k', a') :: rest, f.1 ≠ k := by
      intro f hf heq
      obtain rfl | hf := List.mem_cons.mp hf
      · exact OrderedKey.irrefl k (heq ▸ hlt)
      · exact OrderedKey.irrefl k (OrderedKey.trans hlt (heq ▸ (List.pairwise_cons.mp h).1 f hf))
    rw [List.mem_cons]
    exact or_congr_right ⟨fun hf => ⟨hne e hf, hf⟩, And.right⟩
  | case3 k' a' rest hlt hgt ih =>
    have hne : k' ≠ k := fun heq => OrderedKey.irrefl k (heq ▸ hgt)
    rw [List.mem_cons, List.mem_cons, ih (List.pairwise_cons.mp h).2, or_left_comm, and_or_left]
    refine or_congr_right (or_congr_left ⟨?_, And.right⟩)
    rintro rfl
    exact ⟨hne, rfl⟩
  | case4 k' a' rest hlt hgt =>
    obtain rfl := OrderedKey.eq_of_not_lt hlt hgt
    have hne : ∀ f ∈ rest, f.1 ≠ k := fun f hf heq =>
      OrderedKey.irrefl k (heq ▸ (List.pairwise_cons.mp h).1 f hf)
    rw [List.mem_cons, List.mem_cons]
    refine or_congr_right ⟨fun hf => ⟨hne e hf, .inr hf⟩, ?_⟩
    rintro ⟨hk, rfl | hf⟩
    · exact absurd rfl hk
    · exact hf

namespace OrderedMap

variable {m m' : OrderedMap κ α}

theorem mem_insert_iff {k : κ} {a : α} {e : κ × α} :
    e ∈ (m.insert k a).entries ↔ e = (k, a) ∨ e.1 ≠ k ∧ e ∈ m.entries :=
  mem_insertEntry_iff m.ascending

theorem eq_of_mem_iff (h : ∀ e, e ∈ m.entries ↔ e ∈ m'.entries) : m = m' := by
  have hnodup (m : OrderedMap κ α) : m.entries.Nodup :=
    (nodup_keys_of_ascending m.ascending).of_map
  exact OrderedMap.ext (eq_of_perm_of_ascending m.ascending m'.ascending
    ((List.perm_ext_iff_of_nodup (hnodup m) (hnodup m')).mpr h))

theorem length_insert {k : κ} (h : ∀ e ∈ m.entries, e.1 ≠ k) (a : α) :
    (m.insert k a).entries.length = m.entries.length + 1 :=
  (perm_insertEntry h).length_eq

end OrderedMap

end

namespace FixedBytes

variable {size : Nat} {b c : FixedBytes size} {s : String}

def SpelledBy (b : FixedBytes size) (s : String) : Prop :=
  Hex.Spells size s (BigEndian.toNat b.toList)

theorem spelledBy_iff : b.SpelledBy s ↔ ofText s = .ok b := ofText_eq_ok_iff.symm

theorem eq_of_spelledBy (hb : b.SpelledBy s) (hc : c.SpelledBy s) : b = c :=
  Except.ok.inj ((spelledBy_iff.mp hb).symm.trans (spelledBy_iff.mp hc))

theorem exists_spelledBy {n : Nat} (h : Hex.Spells size s n) :
    ∃ b : FixedBytes size, b.SpelledBy s := by
  obtain ⟨b, hb, -⟩ := exists_ofText_of_spells h
  exact ⟨b, spelledBy_iff.mpr hb⟩

end FixedBytes

namespace Wire

open Json (Cause Cursor)
open Json.Reader

section

variable {size : Nat} {α : Type} {rule : Json → α → Prop} {ms : List (String × Json)}
  {m m' : OrderedMap (FixedBytes size) α}

/-- A member puts what its value stands for under the key that its name spells. -/
def Puts (size : Nat) (rule : Json → α → Prop) (e : String × Json)
    (m m' : OrderedMap (FixedBytes size) α) : Prop :=
  ∃ b x, b.SpelledBy e.1 ∧ rule e.2 x ∧ m' = m.insert b x

/-- The dictionary of members all of whose names spell keys: each key that is spelled has what the
value of the last member with such a name stands for. -/
structure Gathered (size : Nat) (rule : Json → α → Prop) (ms : List (String × Json))
    (m : OrderedMap (FixedBytes size) α) : Prop where
  spelled : ∀ e ∈ ms, ∃ n, Hex.Spells size e.1 n
  given : ∀ e ∈ ms, ∃ x, rule e.2 x
  mem_iff : ∀ b x, (b, x) ∈ m.entries ↔
    ∃ e, LastWith (fun e => b.SpelledBy e.1) ms e ∧ rule e.2 x

theorem mem_of_taken (hrule : Relator.RightUnique rule) (h : Taken (Puts size rule) ms m m')
    {b : FixedBytes size} {x : α} :
    (b, x) ∈ m'.entries ↔ (∃ e, LastWith (fun e => b.SpelledBy e.1) ms e ∧ rule e.2 x) ∨
      (∀ e ∈ ms, ¬ b.SpelledBy e.1) ∧ (b, x) ∈ m.entries := by
  induction h with
  | nil m => simp [not_lastWith_nil]
  | @cons e ms m₁ m₂ m₃ hm _ ih =>
    obtain ⟨k, y, hk, hy, rfl⟩ := hm
    have hlast : (∃ f, LastWith (fun e => b.SpelledBy e.1) (e :: ms) f ∧ rule f.2 x) ↔
        (∃ f, LastWith (fun e => b.SpelledBy e.1) ms f ∧ rule f.2 x) ∨
          b.SpelledBy e.1 ∧ (∀ f ∈ ms, ¬ b.SpelledBy f.1) ∧ rule e.2 x := by
      simp only [lastWith_cons_iff, or_and_right, exists_or, and_assoc, exists_eq_left]
    rw [ih, hlast, OrderedMap.mem_insert_iff, List.forall_mem_cons]
    by_cases hb : b = k
    · subst hb
      have hx : rule e.2 x ↔ x = y := ⟨fun hx => hrule hx hy, fun hx => hx ▸ hy⟩
      simp [hk, hx]
    · have hnot : ¬ b.SpelledBy e.1 := fun h => hb (FixedBytes.eq_of_spelledBy h hk)
      simp [hnot, hb]

theorem exists_taken (hspelled : ∀ e ∈ ms, ∃ n, Hex.Spells size e.1 n)
    (hgiven : ∀ e ∈ ms, ∃ x, rule e.2 x) (m : OrderedMap (FixedBytes size) α) :
    ∃ m', Taken (Puts size rule) ms m m' := by
  induction ms generalizing m with
  | nil => exact ⟨m, .nil m⟩
  | cons e ms ih =>
    obtain ⟨⟨n, hn⟩, hspelled⟩ := List.forall_mem_cons.mp hspelled
    obtain ⟨⟨x, hx⟩, hgiven⟩ := List.forall_mem_cons.mp hgiven
    obtain ⟨b, hb⟩ := FixedBytes.exists_spelledBy hn
    obtain ⟨m', hm'⟩ := ih hspelled hgiven (m.insert b x)
    exact ⟨m', .cons ⟨b, x, hb, hx, rfl⟩ hm'⟩

theorem forall_of_taken (h : Taken (Puts size rule) ms m m') :
    ∀ e ∈ ms, (∃ n, Hex.Spells size e.1 n) ∧ ∃ x, rule e.2 x := by
  induction h with
  | nil => nofun
  | cons hm _ ih =>
    obtain ⟨b, x, hb, hx, -⟩ := hm
    exact List.forall_mem_cons.mpr ⟨⟨⟨_, hb⟩, x, hx⟩, ih⟩

theorem gathered_of_taken (hrule : Relator.RightUnique rule)
    (h : Taken (Puts size rule) ms .empty m) : Gathered size rule ms m where
  spelled e he := (forall_of_taken h e he).1
  given e he := (forall_of_taken h e he).2
  mem_iff _ _ := (mem_of_taken hrule h).trans (or_iff_left fun hnone => nomatch hnone.2)

theorem eq_of_gathered (h : Gathered size rule ms m) (h' : Gathered size rule ms m') : m = m' :=
  OrderedMap.eq_of_mem_iff fun e => (h.mem_iff e.1 e.2).trans (h'.mem_iff e.1 e.2).symm

/-- Members that are put into a dictionary one after another are gathered in it. -/
theorem gathered_iff_taken (hrule : Relator.RightUnique rule) :
    Gathered size rule ms m ↔ Taken (Puts size rule) ms .empty m := by
  constructor
  · intro h
    obtain ⟨m', hm'⟩ := exists_taken h.spelled h.given .empty
    rwa [eq_of_gathered h (gathered_of_taken hrule hm')]
  · exact gathered_of_taken hrule

theorem exists_gathered_iff (hrule : Relator.RightUnique rule) :
    (∃ m, Gathered size rule ms m) ↔
      ∀ e ∈ ms, (∃ n, Hex.Spells size e.1 n) ∧ ∃ x, rule e.2 x := by
  constructor
  · rintro ⟨m, hm⟩ e he
    exact ⟨hm.spelled e he, hm.given e he⟩
  · intro h
    obtain ⟨m, hm⟩ := exists_taken (fun e he => (h e he).1) (fun e he => (h e he).2) .empty
    exact ⟨m, gathered_of_taken hrule hm⟩

def Distinct (size : Nat) (ms : List (String × Json)) : Prop :=
  ms.Pairwise fun e f => ∀ n, Hex.Spells size e.1 n → ¬ Hex.Spells size f.1 n

theorem length_of_taken (h : Taken (Puts size rule) ms m m') (hms : Distinct size ms)
    (hm : ∀ e ∈ ms, ∀ f ∈ m.entries, ¬ f.1.SpelledBy e.1) :
    m'.entries.length = m.entries.length + ms.length := by
  induction h with
  | nil m => rfl
  | @cons e ms m₁ m₂ m₃ hput _ ih =>
    obtain ⟨b, x, hb, -, rfl⟩ := hput
    obtain ⟨he, hms⟩ := List.pairwise_cons.mp hms
    obtain ⟨hfirst, hm⟩ := List.forall_mem_cons.mp hm
    have hfresh : ∀ f ∈ m₁.entries, f.1 ≠ b := fun f hf heq => hfirst f hf (heq ▸ hb)
    have hlater : ∀ e' ∈ ms, ∀ f ∈ (m₁.insert b x).entries, ¬ f.1.SpelledBy e'.1 := by
      intro e' he' f hf
      obtain rfl | ⟨-, hf⟩ := OrderedMap.mem_insert_iff.mp hf
      · exact he e' he' _ hb
      · exact hm e' he' f hf
    rw [ih hms hlater, OrderedMap.length_insert hfresh, List.length_cons]
    omega

theorem Gathered.of_distinct (h : Gathered size rule ms m) (hrule : Relator.RightUnique rule)
    (hms : Distinct size ms) :
    m.entries.length = ms.length ∧
      ∀ e ∈ ms, ∃ b x, b.SpelledBy e.1 ∧ rule e.2 x ∧ (b, x) ∈ m.entries := by
  constructor
  · have hlength := length_of_taken ((gathered_iff_taken hrule).mp h) hms fun _ _ _ hf => nomatch hf
    exact hlength.trans (Nat.zero_add _)
  · intro e he
    obtain ⟨n, hn⟩ := h.spelled e he
    obtain ⟨x, hx⟩ := h.given e he
    obtain ⟨b, hb⟩ := FixedBytes.exists_spelledBy hn
    obtain ⟨before, after, rfl⟩ := List.append_of_mem he
    have hafter := (List.pairwise_cons.mp (List.pairwise_append.mp hms).2.1).1
    have hlast : LastWith (fun e => b.SpelledBy e.1) (before ++ e :: after) e :=
      ⟨before, after, rfl, hb, fun f hf => hafter f hf _ hb⟩
    exact ⟨b, x, hb, hx, (h.mem_iff b x).mpr ⟨e, hlast, hx⟩⟩

end

def Dictionary {α : Type} (size : Nat) (rule : Json → α → Prop) :
    Json → OrderedMap (FixedBytes size) α → Prop
  | .object ms, m => Gathered size rule ms m
  | _, _ => False

section

variable {size : Nat} {item : Shape} {rule : Json → item.Carrier → Prop}

theorem rightUnique_of_readBy {s : Shape} {rule : Json → s.Carrier → Prop} (h : s.ReadBy rule) :
    Relator.RightUnique rule := by
  intro v x y hx hy
  exact Except.ok.inj (((h v x).mpr hx).symm.trans ((h v y).mpr hy))

theorem insertMember_eq_ok_iff (h : item.ReadBy rule) (e : String × Json)
    (m m' : OrderedMap (FixedBytes size) item.Carrier) :
    insertMember m e = .ok m' ↔ Puts size rule e m m' := by
  unfold insertMember Puts
  simp only [FixedBytes.spelledBy_iff, ← fixedOfText_eq_ok_iff, ← h e.2]
  cases fixedOfText size e.1 with
  | error cause => exact iff_of_false nofun fun ⟨_, _, h, _⟩ => nomatch h
  | ok b =>
    cases item.ofJson e.2 with
    | error cause => exact iff_of_false nofun fun ⟨_, _, _, h, _⟩ => nomatch h
    | ok x => simp [bind, Except.bind, pure, Except.pure, eq_comm]

theorem readBy_dictionary (h : item.ReadBy rule) :
    (Shape.dictionary size item).ReadBy (Dictionary size rule) := by
  intro v m
  cases v with
  | object ms =>
    exact (foldlM_eq_ok_iff (insertMember_eq_ok_iff h)).trans
      (gathered_iff_taken (rightUnique_of_readBy h)).symm
  | _ => exact iff_of_false (mismatch_ne_ok _ _ _) id

theorem not_dictionary_of_scalar {c c' : Cursor} {v : Json} (h : Scalar c v c')
    {m : OrderedMap (FixedBytes size) item.Carrier} : ¬ Dictionary size rule v m := by
  cases h with
  | negative _ hnumber | positive _ _ hnumber => cases (number_eq_ok hnumber).1 <;> exact id
  | _ => exact id

theorem entry_eq_ok_iff (h : item.FollowedBy rule) {depth : Nat} {k : String} {v : Json}
    {c c₁ c₂ c' : Cursor} (hname : Json.Reader.name c = .ok k c₁) (hcolon : colon c₁ = .ok () c₂)
    (hvalue : verbatim depth c₂ = .ok v c') (m m' : OrderedMap (FixedBytes size) item.Carrier)
    (c'' : Cursor) :
    (do
      let b ← lift (fixedOfText size (← name))
      colon
      let x ← item.read depth
      return m.insert b x : Json.Reader (OrderedMap (FixedBytes size) item.Carrier)) c =
        .ok m' c'' ↔
      Puts size rule (k, v) m m' ∧ c'' = c' := by
  rw [bind_of_eq_ok hname]
  simp only [Puts, FixedBytes.spelledBy_iff, ← fixedOfText_eq_ok_iff, bind_eq_ok_iff,
    lift_eq_ok_iff, pure_apply, EStateM.Result.ok.injEq]
  constructor
  · rintro ⟨b, _, ⟨hb, rfl⟩, _, _, hcolon', x, _, hx, rfl, rfl⟩
    obtain ⟨-, rfl⟩ := EStateM.Result.ok.inj (hcolon.symm.trans hcolon')
    obtain ⟨hx, rfl⟩ := (h hvalue x _).mp hx
    exact ⟨⟨b, x, hb, hx, rfl⟩, rfl⟩
  · rintro ⟨⟨b, x, hb, hx, rfl⟩, rfl⟩
    exact ⟨b, c₁, ⟨hb, rfl⟩, (), c₂, hcolon, x, c'', (h hvalue x _).mpr ⟨hx, rfl⟩, rfl, rfl⟩

theorem followedBy_dictionary (h : item.FollowedBy rule) (hrule : Relator.RightUnique rule) :
    (Shape.dictionary size item).FollowedBy (Dictionary size rule) := by
  intro depth c c' d hd m c''
  rw [Shape.read]
  refine startingWith_eq_ok_iff.trans ?_
  cases layer_of_verbatim hd with
  | scalar hscalar =>
    obtain ⟨b, hhead, -, hbrace⟩ := ne_bracket_of_scalar hscalar
    refine iff_of_false (fun h => hbrace (Option.some.inj (hhead.symm.trans h.1))) fun h => ?_
    exact not_dictionary_of_scalar hscalar h.1
  | list hhead _ _ =>
    exact iff_of_false (fun h => absurd (hhead.symm.trans h.1) (by decide)) fun h => h.1
  | @object depth ms _ hhead hlength hmembers =>
    refine (and_iff_right hhead).trans (enclosed_eq_ok_iff.trans ?_)
    exact (members_eq_ok_iff (fun hname hcolon hvalue => entry_eq_ok_iff h hname hcolon hvalue)
      hlength hmembers).trans (and_congr_left fun _ => (gathered_iff_taken hrule).symm)

end

end Wire

end ChainGateway
