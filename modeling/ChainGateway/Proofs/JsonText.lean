import ChainGateway.Proofs.TokenSkip
import Mathlib.Data.List.Forall2

namespace ChainGateway

namespace Json

mutual

def nesting : Json → Nat
  | array items => nestingItems items + 1
  | object members => nestingMembers members + 1
  | _ => 0

def nestingItems : List Json → Nat
  | [] => 0
  | v :: r => max (nesting v) (nestingItems r)

def nestingMembers : List (String × Json) → Nat
  | [] => 0
  | (_, v) :: r => max (nesting v) (nestingMembers r)

end

theorem nesting_le_of_mem_items {items : List Json} {v : Json} (h : v ∈ items) :
    nesting v ≤ nestingItems items := by
  induction items with
  | nil => cases h
  | cons w items ih =>
    rw [nestingItems]
    obtain rfl | h := List.mem_cons.mp h
    · exact Nat.le_max_left _ _
    · exact Nat.le_trans (ih h) (Nat.le_max_right _ _)

theorem nesting_le_of_mem_members {members : List (String × Json)} {m : String × Json}
    (h : m ∈ members) : nesting m.2 ≤ nestingMembers members := by
  induction members with
  | nil => cases h
  | cons w members ih =>
    rw [nestingMembers]
    obtain rfl | h := List.mem_cons.mp h
    · exact Nat.le_max_left _ _
    · exact Nat.le_trans (ih h) (Nat.le_max_right _ _)

theorem nestingItems_le {items : List Json} {depth : Nat} (h : ∀ v ∈ items, nesting v ≤ depth) :
    nestingItems items ≤ depth := by
  induction items with
  | nil => exact Nat.zero_le depth
  | cons v items ih =>
    obtain ⟨hv, hitems⟩ := List.forall_mem_cons.mp h
    exact Nat.max_le.mpr ⟨hv, ih hitems⟩

theorem nestingMembers_le {members : List (String × Json)} {depth : Nat}
    (h : ∀ m ∈ members, nesting m.2 ≤ depth) : nestingMembers members ≤ depth := by
  induction members with
  | nil => exact Nat.zero_le depth
  | cons m members ih =>
    obtain ⟨hm, hmembers⟩ := List.forall_mem_cons.mp h
    exact Nat.max_le.mpr ⟨hm, ih hmembers⟩

/-- The values all of whose numbers are integers that are kept exact. The members of an object are
in the order of their names, as in any value that was read, and do not embed a text. -/
inductive Exact : Json → Prop where
  | null : Exact null
  | bool (b : Bool) : Exact (bool b)
  | integer {n : Int} : exactInteger n = true → Exact (integer n)
  | string (s : String) : Exact (string s)
  | array {items : List Json} : (∀ v ∈ items, Exact v) → Exact (array items)
  | object {members : List (String × Json)} : Ascending members → embedding? members = none →
      (∀ m ∈ members, Exact m.2) → Exact (object members)

/-- The values all of whose numbers are integers that are kept exact. -/
inductive Integral : Json → Prop where
  | null : Integral null
  | bool (b : Bool) : Integral (bool b)
  | integer {n : Int} : exactInteger n = true → Integral (integer n)
  | string (s : String) : Integral (string s)
  | array {items : List Json} : (∀ v ∈ items, Integral v) → Integral (array items)
  | object {members : List (String × Json)} : (∀ m ∈ members, Integral m.2) →
      Integral (object members)

theorem Integral.of_exact {v : Json} (h : Exact v) : Integral v := by
  induction h with
  | null => exact .null
  | bool b => exact .bool b
  | integer hn => exact .integer hn
  | string s => exact .string s
  | array _ ih => exact .array ih
  | object _ _ _ ih => exact .object ih

def written (v : Json) : List UInt8 := bytes (compactChars v)

def commas (texts : List (List UInt8)) : List UInt8 := [44].intercalate texts

theorem commas_cons_cons (text text' : List UInt8) (texts : List (List UInt8)) :
    commas (text :: text' :: texts) = text ++ 44 :: commas (text' :: texts) := by
  rw [commas, List.intercalate_cons_cons, List.append_assoc]
  rfl

theorem commas_cons (text : List UInt8) (texts : List (List UInt8)) :
    commas (text :: texts) = text ++ texts.flatMap (44 :: ·) := by
  induction texts generalizing text with
  | nil => simp [commas]
  | cons text' texts ih =>
    rw [commas_cons_cons, ih, List.flatMap_cons]
    rfl

def further (front : List UInt8) (texts : List (List UInt8)) : List UInt8 :=
  texts.flatMap fun text => 44 :: (front ++ text)

theorem further_cons (front text : List UInt8) (texts : List (List UInt8)) :
    further front (text :: texts) = 44 :: (front ++ (text ++ further front texts)) := by
  rw [further, List.flatMap_cons, List.cons_append, List.append_assoc]
  rfl

theorem length_le_further (front : List UInt8) (texts : List (List UInt8)) :
    texts.length ≤ (further front texts).length := by
  induction texts with
  | nil => exact Nat.le_refl _
  | cons text texts ih =>
    rw [further_cons, List.length_cons, List.length_cons, List.length_append, List.length_append]
    omega

/-- Texts with commas between them, with blanks in front of each and blanks behind the last. -/
def laidOut (front back : List UInt8) : List (List UInt8) → List UInt8
  | [] => []
  | text :: texts => front ++ (text ++ (further front texts ++ back))

theorem commas_eq_laidOut (texts : List (List UInt8)) : commas texts = laidOut [] [] texts := by
  cases texts with
  | nil => rfl
  | cons text texts =>
    rw [commas_cons, laidOut, List.append_nil]
    rfl

theorem bytes_compactItems (items : List Json) :
    bytes (compactItems items) = commas (items.map written) := by
  induction items with
  | nil => rfl
  | cons v items ih =>
    cases items with
    | nil => simp [compactItems, commas, written]
    | cons w items =>
      have hcomma : bytes (',' :: compactItems (w :: items)) =
        44 :: bytes (compactItems (w :: items)) := rfl
      rw [compactItems, bytes_append, hcomma, ih]
      exact (commas_cons_cons _ _ _).symm

theorem written_array (items : List Json) :
    written (.array items) = 91 :: commas (items.map written) ++ [93] := by
  have hcons : compactChars (.array items) = ['['] ++ compactItems items ++ [']'] := rfl
  rw [written, hcons, bytes_append, bytes_append, bytes_compactItems]
  rfl

def memberText (behind : Json → List UInt8) (m : String × Json) : List UInt8 :=
  bytes (quoted m.1) ++ 58 :: behind m.2

theorem bytes_compactMembers (members : List (String × Json)) :
    bytes (compactMembers members) = commas (members.map (memberText written)) := by
  induction members with
  | nil => rfl
  | cons m members ih =>
    have hmember : bytes (quoted m.1 ++ ':' :: compactChars m.2) = memberText written m :=
      bytes_append _ _
    cases members with
    | nil => simp [compactMembers, commas, hmember]
    | cons m' members =>
      have hcomma : bytes (',' :: compactMembers (m' :: members)) =
        44 :: bytes (compactMembers (m' :: members)) := rfl
      rw [compactMembers, bytes_append, hmember, hcomma, ih]
      exact (commas_cons_cons _ _ _).symm

theorem written_object (members : List (String × Json)) :
    written (.object members) = 123 :: commas (members.map (memberText written)) ++ [125] := by
  have hcons : compactChars (.object members) = ['{'] ++ compactMembers members ++ ['}'] := rfl
  rw [written, hcons, bytes_append, bytes_append, bytes_compactMembers]
  rfl

namespace Reader

variable {α : Type}

structure Item (item : Reader α) (text : List UInt8) (a : α) : Prop where
  opens : ∃ b r, text = b :: r ∧ isSpace b = false ∧ b ≠ 93
  gives : ∀ rest, Delimited rest → Gives item (text ++ rest) a rest

theorem delimited_cons {b : UInt8} (h : b = 44 ∨ b = 93 ∨ b = 125 ∨ isSpace b = true)
    (rest : List UInt8) : Delimited (b :: rest) :=
  fun _ hb => Option.some.inj hb ▸ h

section

variable {front back : List UInt8} (hfront : Blanks front) (hback : Blanks back)

include hback in
/-- Behind an item or a member stands a comma, a blank or the closing bracket. -/
theorem delimited_further (front : List UInt8) (texts : List (List UInt8)) {b : UInt8}
    (hb : b = 93 ∨ b = 125) (rest : List UInt8) :
    Delimited (further front texts ++ (back ++ b :: rest)) := by
  cases texts with
  | cons text texts =>
    rw [further_cons]
    exact delimited_cons (Or.inl rfl) _
  | nil =>
    cases back with
    | nil => exact delimited_cons (Or.inr (hb.imp_right Or.inl)) rest
    | cons d back =>
      exact delimited_cons (Or.inr (Or.inr (Or.inr (hback d List.mem_cons_self)))) _

section

variable {item : Reader α} {texts : List (List UInt8)} {as : List α}

include hfront in
theorem gives_anotherItem_first {b : UInt8} (hspace : isSpace b = false) (hb : b ≠ 93)
    (text : List UInt8) : Gives (anotherItem true) (front ++ b :: text) true (b :: text) := by
  refine gives_bind (gives_peekToken?_cons hfront hspace text) ?_
  simp only [hb, ↓reduceIte]
  exact gives_pure true _

include hfront in
theorem gives_anotherItem_comma {b : UInt8} (hspace : isSpace b = false) (hb : b ≠ 93)
    (text : List UInt8) :
    Gives (anotherItem false) (44 :: (front ++ b :: text)) true (b :: text) := by
  refine gives_bind (gives_peekToken? rfl _) (gives_bind (gives_advance 44 _) ?_)
  refine gives_bind (gives_peekToken?_cons hfront hspace text) ?_
  simp only [hb, ↓reduceIte]
  exact gives_pure true _

include hback in
theorem gives_anotherItem_none (first : Bool) (rest : List UInt8) :
    Gives (anotherItem first) (back ++ 93 :: rest) false (93 :: rest) :=
  gives_bind (gives_peekToken?_cons hback rfl rest) (gives_pure false _)

theorem gives_closeList (rest : List UInt8) : Gives closeList (93 :: rest) () rest :=
  gives_bind (gives_peekToken? rfl rest) (gives_advance 93 rest)

include hfront hback in
theorem gives_items_go_false (h : List.Forall₂ (Item item) texts as) {fuel : Nat}
    (hfuel : texts.length < fuel) (acc : List α) (rest : List UInt8) :
    Gives (items.go item fuel false acc) (further front texts ++ (back ++ 93 :: rest))
      (acc.reverse ++ as) (93 :: rest) := by
  obtain ⟨fuel, rfl⟩ := Nat.exists_eq_succ_of_ne_zero (Nat.ne_zero_of_lt hfuel)
  induction h generalizing fuel acc with
  | nil =>
    rw [List.append_nil]
    exact gives_bind (gives_anotherItem_none hback false rest) (gives_pure _ _)
  | @cons text a texts as hitem _ ih =>
    have hfuel' : texts.length < fuel := Nat.lt_of_succ_lt_succ hfuel
    obtain ⟨fuel, rfl⟩ := Nat.exists_eq_succ_of_ne_zero (Nat.ne_zero_of_lt hfuel')
    obtain ⟨⟨b, r, rfl, hspace, hb⟩, hgives⟩ := hitem
    rw [further_cons, List.cons_append, List.append_assoc, List.append_assoc]
    refine gives_bind (gives_anotherItem_comma hfront hspace hb _)
      (gives_bind (hgives _ (delimited_further hback front texts (Or.inl rfl) rest)) ?_)
    have hrest := ih (a :: acc) fuel hfuel'
    rwa [List.reverse_cons, List.append_assoc] at hrest

include hfront hback in
theorem gives_items_laidOut (h : List.Forall₂ (Item item) texts as) (rest : List UInt8) :
    Gives (items item) (laidOut front back texts ++ 93 :: rest) as (93 :: rest) := by
  refine gives_bind (gives_steps _) ?_
  cases h with
  | nil => exact gives_bind (gives_anotherItem_none blanks_nil true rest) (gives_pure _ _)
  | @cons text a texts as hitem hitems =>
    have hfuel : texts.length < (laidOut front back (text :: texts) ++ 93 :: rest).length := by
      have := length_le_further front texts
      simp only [laidOut, List.length_append, List.length_cons]
      omega
    obtain ⟨⟨b, r, rfl, hspace, hb⟩, hgives⟩ := hitem
    rw [laidOut, List.append_assoc, List.append_assoc, List.append_assoc] at hfuel ⊢
    refine gives_bind (gives_anotherItem_first hfront hspace hb _)
      (gives_bind (hgives _ (delimited_further hback front texts (Or.inl rfl) rest)) ?_)
    exact gives_items_go_false hfront hback hitems hfuel [a] rest

include hfront hback in
theorem gives_list_laidOut (h : List.Forall₂ (Item item) texts as) (rest : List UInt8) :
    Gives (list item) (91 :: laidOut front back texts ++ 93 :: rest) as rest :=
  gives_bind (gives_advance 91 _)
    (gives_enclosed (gives_items_laidOut hfront hback h rest) (gives_closeList rest))

theorem gives_list (h : List.Forall₂ (Item item) texts as) (rest : List UInt8) :
    Gives (list item) (91 :: commas texts ++ 93 :: rest) as rest := by
  rw [commas_eq_laidOut]
  exact gives_list_laidOut blanks_nil blanks_nil h rest

end

/-- Members are read one after another, each from behind its name onto what the ones before it
gave. -/
inductive Chain (behind : Json → List UInt8) (onward : String → α → Reader α) :
    List (String × Json) → α → α → Prop where
  | nil (a : α) : Chain behind onward [] a a
  | cons {m : String × Json} {members : List (String × Json)} {a b c : α} :
      (∀ rest, Delimited rest →
        Gives (onward m.1 a) (58 :: (behind m.2 ++ rest)) b rest) →
      Chain behind onward members b c → Chain behind onward (m :: members) a c

def named (onward : String → α → Reader α) (a : α) : Reader α := do
  let k ← name
  onward k a

variable {behind : Json → List UInt8} {onward : String → α → Reader α}
variable {ms : List (String × Json)} {a b : α}

theorem gives_named {m : String × Json} {rest : List UInt8}
    (h : Gives (onward m.1 a) (58 :: (behind m.2 ++ rest)) b rest) :
    ∃ text, memberText behind m ++ rest = 34 :: text ∧
      Gives (named onward a) (34 :: text) b rest := by
  obtain ⟨text, htext, hgives⟩ := gives_quoted m.1 (58 :: (behind m.2 ++ rest))
  refine ⟨text, ?_, gives_bind (gives_bind (gives_advance 34 text) hgives) h⟩
  rw [memberText, List.append_assoc]
  exact htext

include hfront in
theorem gives_anotherMember_first (text : List UInt8) :
    Gives (anotherMember true) (front ++ 34 :: text) true (34 :: text) :=
  gives_bind (gives_peekToken?_cons hfront rfl text) (gives_pure true _)

include hfront in
theorem gives_anotherMember_comma (text : List UInt8) :
    Gives (anotherMember false) (44 :: (front ++ 34 :: text)) true (34 :: text) :=
  gives_bind (gives_peekToken? rfl _) (gives_bind (gives_advance 44 _)
    (gives_bind (gives_peekToken?_cons hfront rfl text) (gives_pure true _)))

include hback in
theorem gives_anotherMember_none (first : Bool) (rest : List UInt8) :
    Gives (anotherMember first) (back ++ 125 :: rest) false (125 :: rest) :=
  gives_bind (gives_peekToken?_cons hback rfl rest) (gives_pure false _)

theorem gives_closeObject (rest : List UInt8) : Gives closeObject (125 :: rest) () rest :=
  gives_bind (gives_peekToken? rfl rest) (gives_advance 125 rest)

theorem gives_colon (rest : List UInt8) : Gives colon (58 :: rest) () rest :=
  gives_bind (gives_peekToken? rfl rest) (gives_advance 58 rest)

include hfront hback in
theorem gives_members_go_false (h : Chain behind onward ms a b) {fuel : Nat}
    (hfuel : ms.length < fuel) (rest : List UInt8) :
    Gives (members.go (named onward) fuel false a)
      (further front (ms.map (memberText behind)) ++ (back ++ 125 :: rest)) b (125 :: rest) := by
  obtain ⟨fuel, rfl⟩ := Nat.exists_eq_succ_of_ne_zero (Nat.ne_zero_of_lt hfuel)
  induction h generalizing fuel with
  | nil a => exact gives_bind (gives_anotherMember_none hback false rest) (gives_pure _ _)
  | @cons m ms a b c hgives _ ih =>
    have hfuel' : ms.length < fuel := Nat.lt_of_succ_lt_succ hfuel
    obtain ⟨fuel, rfl⟩ := Nat.exists_eq_succ_of_ne_zero (Nat.ne_zero_of_lt hfuel')
    obtain ⟨text, htext, hnamed⟩ := gives_named
      (hgives _ (delimited_further hback front (ms.map (memberText behind)) (Or.inr rfl) rest))
    rw [List.map_cons, further_cons, List.cons_append, List.append_assoc, List.append_assoc, htext]
    exact gives_bind (gives_anotherMember_comma hfront text)
      (gives_bind hnamed (ih fuel hfuel'))

include hfront hback in
theorem gives_members_laidOut (h : Chain behind onward ms a b) (rest : List UInt8) :
    Gives (members (named onward) a)
      (laidOut front back (ms.map (memberText behind)) ++ 125 :: rest) b (125 :: rest) := by
  refine gives_bind (gives_steps _) ?_
  cases h with
  | nil => exact gives_bind (gives_anotherMember_none blanks_nil true rest) (gives_pure _ _)
  | @cons m ms _ b _ hgives hmembers =>
    have hfuel : ms.length <
        (laidOut front back ((m :: ms).map (memberText behind)) ++ 125 :: rest).length := by
      have := length_le_further front (ms.map (memberText behind))
      rw [List.length_map] at this
      simp only [List.map_cons, laidOut, List.length_append, List.length_cons]
      omega
    obtain ⟨text, htext, hnamed⟩ := gives_named
      (hgives _ (delimited_further hback front (ms.map (memberText behind)) (Or.inr rfl) rest))
    rw [List.map_cons, laidOut, List.append_assoc, List.append_assoc, List.append_assoc,
      htext] at hfuel ⊢
    exact gives_bind (gives_anotherMember_first hfront text)
      (gives_bind hnamed (gives_members_go_false hfront hback hmembers hfuel rest))

theorem gives_members (h : Chain behind onward ms a b) (rest : List UInt8) :
    Gives (members (named onward) a) (commas (ms.map (memberText behind)) ++ 125 :: rest) b
      (125 :: rest) := by
  rw [commas_eq_laidOut]
  exact gives_members_laidOut blanks_nil blanks_nil h rest

include hfront hback in
theorem gives_object_laidOut (h : Chain behind onward ms a b) (rest : List UInt8) :
    Gives (object (named onward) a)
      (123 :: laidOut front back (ms.map (memberText behind)) ++ 125 :: rest) b rest :=
  gives_bind (gives_advance 123 _)
    (gives_enclosed (gives_members_laidOut hfront hback h rest) (gives_closeObject rest))

end

/-- An integer that is kept exact begins with its sign or with a digit, and is read back behind the
one and from the other on. -/
theorem integer_text {n : Int} (h : exactInteger n = true) :
    (∃ text, written (.integer n) = 45 :: text ∧
      ∀ rest, Delimited rest → Gives (number true) (text ++ rest) (.integer n) rest) ∨
    ∃ b text, written (.integer n) = b :: text ∧ isDigit b = true ∧
      ∀ rest, Delimited rest → Gives (number false) (b :: text ++ rest) (.integer n) rest := by
  have hrange : -0x8000000000000000 ≤ n ∧ n < 0x10000000000000000 := by
    simpa [exactInteger] using h
  have htext : written (.integer n) = bytes n.repr.toList := rfl
  by_cases hn : 0 ≤ n
  · refine Or.inr ?_
    obtain ⟨m, rfl⟩ := Int.eq_ofNat_of_zero_le hn
    have hdecimal : written (.integer m) = decimal m := by
      rw [htext, Int.repr_eq_if, if_pos hn, Int.toNat_natCast, Nat.toList_repr]
      rfl
    obtain ⟨b, text, hcons, hb⟩ := exists_decimal m
    refine ⟨b, text, hdecimal.trans hcons, hb, fun rest hrest => ?_⟩
    rw [← hcons]
    exact gives_number (by omega) false hrest
  · refine Or.inl ?_
    obtain ⟨m, hm⟩ : ∃ m : Nat, n = -m := ⟨(-n).toNat, by omega⟩
    subst hm
    have hdecimal : written (.integer (-m)) = 45 :: decimal m := by
      rw [htext, Int.repr_eq_if, if_neg hn, Int.neg_neg, Int.toNat_natCast, String.toList_append,
        bytes_append, Nat.toList_repr]
      rfl
    refine ⟨decimal m, hdecimal, fun rest hrest => ?_⟩
    have hgives := gives_number (n := m) (by omega) true hrest
    have hwhole : whole true m = .integer (-m) := by
      have : ¬ (m = 0 ∨ m > 0x8000000000000000) := by omega
      simp only [whole, this, ↓reduceIte]
    rwa [hwhole] at hgives

section

variable {leaf : Json → Except Cause α} {array object : Reader α} {a : α} {rest : List UInt8}

theorem gives_lift_ok {v : Json} (h : leaf v = .ok a) (text : List UInt8) :
    Gives (lift (leaf v)) text a text := by
  rw [h]
  exact gives_pure a text

theorem gives_dispatch_null (h : leaf .null = .ok a) :
    Gives (dispatch leaf array object) (written .null ++ rest) a rest :=
  gives_placed (gives_bind (gives_peekToken? rfl _) (gives_bind (gives_advance 110 _)
    (gives_bind (gives_keyword [117, 108, 108] rest) (gives_lift_ok h rest))))

theorem gives_dispatch_bool {b : Bool} (h : leaf (.bool b) = .ok a) :
    Gives (dispatch leaf array object) (written (.bool b) ++ rest) a rest := by
  cases b with
  | false =>
    exact gives_placed (gives_bind (gives_peekToken? rfl _) (gives_bind (gives_advance 102 _)
      (gives_bind (gives_keyword [97, 108, 115, 101] rest) (gives_lift_ok h rest))))
  | true =>
    exact gives_placed (gives_bind (gives_peekToken? rfl _) (gives_bind (gives_advance 116 _)
      (gives_bind (gives_keyword [114, 117, 101] rest) (gives_lift_ok h rest))))

theorem gives_dispatch_string {s : String} (h : leaf (.string s) = .ok a) :
    Gives (dispatch leaf array object) (written (.string s) ++ rest) a rest := by
  obtain ⟨text, htext, hgives⟩ := gives_quoted s rest
  have hstring : written (.string s) = bytes (quoted s) := rfl
  rw [hstring, htext]
  exact gives_placed (gives_bind (gives_peekToken? rfl _) (gives_bind (gives_advance 34 _)
    (gives_bind hgives (gives_lift_ok h rest))))

theorem gives_dispatch_integer {n : Int} (hn : exactInteger n = true)
    (h : leaf (.integer n) = .ok a) (hrest : Delimited rest) :
    Gives (dispatch leaf array object) (written (.integer n) ++ rest) a rest := by
  obtain ⟨text, htext, hgives⟩ | ⟨b, text, htext, hb, hgives⟩ := integer_text hn
  · rw [htext]
    exact gives_placed (gives_bind (gives_peekToken? rfl _) (gives_bind (gives_advance 45 _)
      (gives_bind (hgives rest hrest) (gives_lift_ok h rest))))
  · rw [htext]
    refine gives_placed (gives_bind (gives_peekToken? (isSpace_of_isDigit hb) _) ?_)
    have hn' : b ≠ 110 := ne_of_isDigit hb rfl
    have ht : b ≠ 116 := ne_of_isDigit hb rfl
    have hf : b ≠ 102 := ne_of_isDigit hb rfl
    have hminus : b ≠ 45 := ne_of_isDigit hb rfl
    simp only [hn', ht, hf, hminus, hb, ↓reduceIte]
    exact gives_bind (hgives rest hrest) (gives_lift_ok h rest)

theorem dispatch_token (c : Cursor) :
    dispatch leaf array object c.token = dispatch leaf array object c := by
  unfold dispatch placed
  rw [peekToken?_bind, peekToken?_bind, token_token]

theorem gives_dispatch_behind {gap text : List UInt8} (hgap : Blanks gap)
    (hopens : ∀ b ∈ text.head?, isSpace b = false)
    (h : Gives (dispatch leaf array object) text a rest) :
    Gives (dispatch leaf array object) (gap ++ text) a rest := by
  intro c hc
  have htoken : c.token.rest = text := by
    rw [Cursor.token, rest_advanceBy, hc, takeWhile_isSpace hgap hopens, List.drop_left]
  rw [← dispatch_token]
  exact h c.token htoken

theorem gives_dispatch_array {text : List UInt8} (h : Gives array (91 :: text) a rest) :
    Gives (dispatch leaf array object) (91 :: text) a rest :=
  gives_placed (gives_bind (gives_peekToken? rfl text) h)

theorem gives_dispatch_object {text : List UInt8} (h : Gives object (123 :: text) a rest) :
    Gives (dispatch leaf array object) (123 :: text) a rest :=
  gives_placed (gives_bind (gives_peekToken? rfl text) h)

end

/-- Each value's text begins with a byte that neither is blank nor closes a list, and only the text
of null with an n. -/
theorem written_opens {v : Json} (h : Integral v) :
    ∃ b text, written v = b :: text ∧ isSpace b = false ∧ b ≠ 93 ∧ (v ≠ .null → b ≠ 110) := by
  cases h with
  | null => exact ⟨110, _, rfl, rfl, by decide, fun hnull => absurd rfl hnull⟩
  | bool b =>
    cases b with
    | false => exact ⟨102, _, rfl, rfl, by decide, fun _ => by decide⟩
    | true => exact ⟨116, _, rfl, rfl, by decide, fun _ => by decide⟩
  | integer hn =>
    obtain ⟨text, htext, -⟩ | ⟨b, text, htext, hb, -⟩ := integer_text hn
    · exact ⟨45, text, htext, rfl, by decide, fun _ => by decide⟩
    · exact ⟨b, text, htext, isSpace_of_isDigit hb, ne_of_isDigit hb rfl,
        fun _ => ne_of_isDigit hb rfl⟩
  | string s => exact ⟨34, _, rfl, rfl, by decide, fun _ => by decide⟩
  | array _ => exact ⟨91, _, rfl, rfl, by decide, fun _ => by decide⟩
  | object _ => exact ⟨123, _, rfl, rfl, by decide, fun _ => by decide⟩

theorem item_of_integral {value : Reader Json} {v w : Json} (h : Integral v)
    (hgives : ∀ rest, Delimited rest → Gives value (written v ++ rest) w rest) :
    Item value (written v) w := by
  obtain ⟨b, text, htext, hspace, hb, -⟩ := written_opens h
  exact ⟨⟨b, text, htext, hspace, hb⟩, hgives⟩

/-- A way of writing values at each level of nesting: what holds no other value has one text only,
and blanks may stand around what is inside brackets. -/
structure Layout (text : Nat → Json → List UInt8) : Prop where
  scalar : ∀ level {v}, nesting v = 0 → text level v = written v
  array : ∀ level items, ∃ front back, Blanks front ∧ Blanks back ∧
    text level (.array items) = 91 :: laidOut front back (items.map (text (level + 1))) ++ [93]
  object : ∀ level members, ∃ front back gap, Blanks front ∧ Blanks back ∧ Blanks gap ∧
    text level (.object members) =
      123 :: laidOut front back
        (members.map (memberText fun v => gap ++ text (level + 1) v)) ++ [125]

namespace Layout

variable {text : Nat → Json → List UInt8} (hlayout : Layout text)

include hlayout

theorem opens {v : Json} (h : Integral v) (level : Nat) :
    ∃ b r, text level v = b :: r ∧ isSpace b = false ∧ b ≠ 93 := by
  have hscalar (hv : nesting v = 0) :
      ∃ b r, text level v = b :: r ∧ isSpace b = false ∧ b ≠ 93 := by
    obtain ⟨b, r, hwritten, hspace, hb, -⟩ := written_opens h
    exact ⟨b, r, (hlayout.scalar level hv).trans hwritten, hspace, hb⟩
  cases h with
  | null | bool | integer | string => exact hscalar rfl
  | @array items _ =>
    obtain ⟨front, back, -, -, htext⟩ := hlayout.array level items
    exact ⟨91, _, htext, rfl, by decide⟩
  | @object members _ =>
    obtain ⟨front, back, gap, -, -, -, htext⟩ := hlayout.object level members
    exact ⟨123, _, htext, rfl, by decide⟩

end Layout

theorem layout_written : Layout fun _ => written where
  scalar _ _ _ := rfl
  array _ items := ⟨[], [], blanks_nil, blanks_nil, by rw [written_array, commas_eq_laidOut]⟩
  object _ members :=
    ⟨[], [], [], blanks_nil, blanks_nil, blanks_nil, by rw [written_object, commas_eq_laidOut]; rfl⟩

def toEnd (r : Reader α) : Reader α := do
  let a ← r
  if (← peekToken?).isSome then failAhead .trailingCharacters
  return a

/-- A reader that leaves nothing but blanks reads the whole of a text. -/
theorem all_eq_ok_of_blanks {r : Reader α} {text gap : List UInt8} {a : α} (h : Gives r text a gap)
    (hgap : Blanks gap) : all r text = .ok a := by
  have hend : Gives peekToken? gap none [] := by
    have hskip : Gives peekToken? (gap ++ []) none [] := gives_peekToken?_behind hgap nofun
    rwa [List.append_nil] at hskip
  have hwhole : Gives (toEnd r) text a [] := by
    refine gives_bind h ?_
    exact gives_bind hend (gives_pure a [])
  obtain ⟨c, hc, -⟩ := hwhole (Cursor.start text) rfl
  unfold toEnd at hc
  unfold all
  dsimp only
  rw [hc]

theorem all_eq_ok {r : Reader α} {text : List UInt8} {a : α} (h : Gives r text a []) :
    all r text = .ok a :=
  all_eq_ok_of_blanks h blanks_nil

end Reader

theorem utf8_compact (v : Json) : Text.utf8 (compact v) = written v := by
  rw [Text.utf8, compact, String.toList_ofList]
  rfl

end Json

end ChainGateway
