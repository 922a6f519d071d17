import ChainGateway.Proofs.Dictionaries
import ChainGateway.Proofs.ProviderData

namespace ChainGateway

open Json (Cause)

namespace Wire

section

variable {α : Type} {rule : Json → α → Prop}

theorem rightUnique_orNull (h : Relator.RightUnique rule) : Relator.RightUnique (OrNull rule) := by
  intro v a b ha hb
  cases ha with
  | null =>
    cases hb with
    | null => rfl
    | given hv _ => exact absurd rfl hv
  | given hv ha =>
    cases hb with
    | null => exact absurd rfl hv
    | given _ hb => rw [h ha hb]

theorem rightUnique_held (h : Relator.RightUnique rule) (presence : Presence) (empty : α) :
    Relator.RightUnique (Held presence rule empty) := by
  intro vs a b ha hb
  cases ha with
  | absent _ =>
    cases hb with
    | absent _ => rfl
  | present ha =>
    cases hb with
    | present hb => exact h ha hb

theorem rightUnique_dictionary (size : Nat) (rule : Json → α → Prop) :
    Relator.RightUnique (Dictionary size rule) := by
  intro v m m' hm hm'
  cases v with
  | object ms => exact eq_of_gathered hm hm'
  | _ => exact hm.elim

theorem rightUnique_fixedInText (size : Nat) : Relator.RightUnique (FixedInText size) := by
  have hbytes : Relator.RightUnique IsByte := fun v x y hx hy => Except.ok.inj (hx.symm.trans hy)
  intro v b b' hb hb'
  cases v with
  | array vs =>
    obtain ⟨taken, rest, rfl, hall, -⟩ := fixedInText_array_iff.mp hb
    obtain ⟨taken', rest', heq, hall', -⟩ := fixedInText_array_iff.mp hb'
    have hlength : taken.length = taken'.length := by
      rw [hall.length_eq, hall'.length_eq, b.length_toList, b'.length_toList]
    obtain ⟨rfl, -⟩ := List.append_inj heq hlength
    exact FixedBytes.ext (hbytes.forall₂ hall hall')
  | string s =>
    cases hb with
    | text hb =>
      cases hb' with
      | text hb' => exact Except.ok.inj (hb.symm.trans hb')
  | _ => cases hb

end

def Determined (s : Shape) (rule : Json → s.Carrier → Prop) : Prop := Relator.RightUnique rule

theorem eq_of_filled {ms : List (String × Json)} : {fields : Fields} → {rules : fields.Rules} →
    fields.Obey Determined rules → {x y : fields.Carrier} → fields.Filled ms rules x →
    fields.Filled ms rules y → x = y
  | .nil, _, _, (), (), _, _ => rfl
  | .cons _ presence shape _, _, ⟨hrule, hrules⟩, (_, _), (_, _), ⟨hx, hxs⟩, ⟨hy, hys⟩ => by
    rw [rightUnique_held hrule presence shape.empty hx hy, eq_of_filled hrules hxs hys]

theorem eq_of_itemized : {fields : Fields} → {rules : fields.Rules} →
    fields.Obey Determined rules → {vs : List Json} → {x y : fields.Carrier} →
    fields.Itemized rules vs x → fields.Itemized rules vs y → x = y
  | .nil, _, _, _, (), (), _, _ => rfl
  | .cons _ presence shape _, _, ⟨hrule, hrules⟩, _, (_, _), (_, _), ⟨hx, hxs⟩, ⟨hy, hys⟩ => by
    rw [rightUnique_held hrule presence shape.empty hx hy, eq_of_itemized hrules hxs hys]

theorem rightUnique_recorded {fields : Fields} {rules : fields.Rules}
    (h : fields.Obey Determined rules) : Relator.RightUnique (fields.Recorded rules) := by
  intro v x y hx hy
  cases v with
  | object ms => exact eq_of_filled h hx hy
  | array vs => exact eq_of_itemized h hx hy
  | _ => exact hx.elim

end Wire

namespace Provider

open Wire

namespace AccountOverride

def fields : Fields :=
  .cons "nonce" .omittable (.nullable (.quantity 64)) <|
  .cons "code" .omittable (.nullable .bytes) <|
  .cons "balance" .omittable (.nullable (.quantity 256)) <|
  .cons "state" .omittable (.nullable (.dictionary 32 (.fixed 32))) <|
  .cons "stateDiff" .omittable (.nullable (.dictionary 32 (.fixed 32))) .nil

def rules (word : Json → Hash → Prop) : fields.Rules :=
  (OrNull fun v n => quantityOfJson 64 v = .ok n, OrNull fun v bs => bytesOfJson v = .ok bs,
    OrNull fun v n => quantityOfJson 256 v = .ok n, OrNull (Dictionary 32 word),
    OrNull (Dictionary 32 word), ())

def IsOverride (word : Json → Hash → Prop) (v : Json) (o : AccountOverride) : Prop :=
  fields.Recorded (rules word) v (OnWire.pack o)

def IsWord (v : Json) (b : Hash) : Prop := fixedOfJson 32 v = .ok b

theorem names_nodup : fields.names.Nodup := by decide

theorem readBy_ofJson (s : Shape) : s.ReadBy fun v x => s.ofJson v = .ok x := fun _ _ => Iff.rfl

theorem obey_readBy : fields.Obey Shape.ReadBy (rules IsWord) :=
  ⟨readBy_nullable (readBy_ofJson _), readBy_nullable (readBy_ofJson _),
    readBy_nullable (readBy_ofJson _), readBy_nullable (readBy_dictionary (readBy_ofJson _)),
    readBy_nullable (readBy_dictionary (readBy_ofJson _)), trivial⟩

theorem obey_followedBy : fields.Obey Shape.FollowedBy (rules (FixedInText 32)) :=
  have hstorage : (Shape.nullable (.dictionary 32 (.fixed 32))).FollowedBy
      (OrNull (Dictionary 32 (FixedInText 32))) :=
    followedBy_nullable (followedBy_dictionary (followedBy_fixed 32) (rightUnique_fixedInText 32))
  ⟨followedBy_nullable (followedBy_quantity 64), followedBy_nullable followedBy_bytes,
    followedBy_nullable (followedBy_quantity 256), hstorage, hstorage, trivial⟩

theorem obey_determined (word : Json → Hash → Prop) : fields.Obey Determined (rules word) :=
  have hok {α : Type} (f : Json → Except Cause α) : Relator.RightUnique fun v a => f v = .ok a :=
    fun _ _ _ ha hb => Except.ok.inj (ha.symm.trans hb)
  ⟨rightUnique_orNull (hok _), rightUnique_orNull (hok _), rightUnique_orNull (hok _),
    rightUnique_orNull (rightUnique_dictionary 32 word),
    rightUnique_orNull (rightUnique_dictionary 32 word), trivial⟩

theorem pack_unpack (x : (OnWire.shape AccountOverride).Carrier) :
    OnWire.pack (OnWire.unpack x : AccountOverride) = x := rfl

theorem rightUnique_isOverride (word : Json → Hash → Prop) :
    Relator.RightUnique (IsOverride word) := fun _ _ _ ho ho' =>
  congrArg OnWire.unpack (rightUnique_recorded (obey_determined word) ho ho')

theorem ofJson_iff {v : Json} {o : AccountOverride} :
    OnWire.ofJson v = .ok o ↔ IsOverride IsWord v o :=
  (OnWire.ofJson_eq_ok_iff (fun _ => rfl) pack_unpack).trans
    (readBy_record obey_readBy names_nodup v (OnWire.pack o))

theorem ofBytes_iff {text : List UInt8} {d : Json} (hd : Json.document text = .ok d)
    {o : AccountOverride} : OnWire.ofBytes text = .ok o ↔ IsOverride (FixedInText 32) d o :=
  (OnWire.ofBytes_eq_ok_iff (fun _ => rfl) pack_unpack).trans
    (Wire.ofBytes_eq_ok_iff (followedBy_record obey_followedBy names_nodup) hd)

end AccountOverride

theorem gathered_mapValues_iff {size : Nat} {α β : Type} {rule : Json → β → Prop} {f : α → β}
    {g : β → α} (hleft : ∀ a, g (f a) = a) (hright : ∀ b, f (g b) = b)
    {ms : List (String × Json)} {m : OrderedMap (FixedBytes size) α} :
    Gathered size rule ms (m.mapValues f) ↔ Gathered size (fun v a => rule v (f a)) ms m := by
  have hmem (k : FixedBytes size) (a : α) :
      (k, f a) ∈ (m.mapValues f).entries ↔ (k, a) ∈ m.entries := by
    have hinjective : Function.Injective f := Function.LeftInverse.injective hleft
    change (k, f a) ∈ m.entries.map _ ↔ _
    simp [hinjective.eq_iff]
  constructor
  · intro h
    refine ⟨h.spelled, fun e he => ?_, fun k a => ?_⟩
    · obtain ⟨b, hb⟩ := h.given e he
      exact ⟨g b, (hright b).symm ▸ hb⟩
    · rw [← hmem, h.mem_iff]
  · intro h
    refine ⟨h.spelled, fun e he => ?_, fun k b => ?_⟩
    · obtain ⟨a, ha⟩ := h.given e he
      exact ⟨f a, ha⟩
    · rw [← hright b, hmem, h.mem_iff]

namespace StateOverrides

open AccountOverride

theorem pack_unpack (x : (OnWire.shape StateOverrides).Carrier) :
    OnWire.pack (OnWire.unpack x : StateOverrides) = x := by
  have hentries : (OrderedMap.mapValues OnWire.pack
      (OrderedMap.mapValues (OnWire.unpack (α := AccountOverride)) x)).entries = x.entries := by
    change (x.entries.map _).map _ = _
    rw [List.map_map]
    exact List.map_id _
  exact OrderedMap.ext hentries

theorem dictionary_pack_iff {rule : Json → (OnWire.shape AccountOverride).Carrier → Prop}
    {v : Json} {m : StateOverrides} : Dictionary 20 rule v (OnWire.pack m) ↔
      Dictionary 20 (fun v o => rule v (OnWire.pack (α := AccountOverride) o)) v m.accounts := by
  cases v with
  | object ms => exact gathered_mapValues_iff (fun _ => rfl) AccountOverride.pack_unpack
  | _ => exact Iff.rfl

theorem ofJson_iff {v : Json} {m : StateOverrides} :
    OnWire.ofJson v = .ok m ↔ Dictionary 20 (IsOverride IsWord) v m.accounts :=
  (OnWire.ofJson_eq_ok_iff unpack_pack pack_unpack).trans
    ((readBy_dictionary (readBy_record obey_readBy names_nodup) v (OnWire.pack m)).trans
      dictionary_pack_iff)

theorem ofBytes_iff {text : List UInt8} {d : Json} (hd : Json.document text = .ok d)
    {m : StateOverrides} :
    OnWire.ofBytes text = .ok m ↔ Dictionary 20 (IsOverride (FixedInText 32)) d m.accounts :=
  (OnWire.ofBytes_eq_ok_iff unpack_pack pack_unpack).trans
    ((Wire.ofBytes_eq_ok_iff (followedBy_dictionary (followedBy_record obey_followedBy names_nodup)
      (rightUnique_recorded (obey_determined _))) hd).trans dictionary_pack_iff)

/-- Among members in the order of their names, the one that decides what a key has. -/
def GreatestName {size : Nat} (ms : List (String × Json)) (b : FixedBytes size)
    (e : String × Json) : Prop :=
  e ∈ ms ∧ b.SpelledBy e.1 ∧ ∀ f ∈ ms, b.SpelledBy f.1 → ¬ e.1 < f.1

def LastPlace {size : Nat} (ms : List (String × Json)) (b : FixedBytes size)
    (e : String × Json) : Prop :=
  LastWith (fun e => b.SpelledBy e.1) ms e

/-- What is decoded of the members of an object, each of which is decoded by a rule, and of which
one decides what a key has. -/
structure Lossless {α : Type} (size : Nat) (rule : Json → α → Prop) (ms : List (String × Json))
    (decides : FixedBytes size → String × Json → Prop)
    (decoded : OrderedMap (FixedBytes size) α → Prop) : Prop where
  exists_iff : (∃ m, decoded m) ↔ ∀ e ∈ ms, (∃ n, Hex.Spells size e.1 n) ∧ ∃ x, rule e.2 x
  ascending : ∀ m, decoded m → Ascending m.entries
  mem_iff : ∀ m, decoded m → ∀ b x, (b, x) ∈ m.entries ↔ ∃ e, decides b e ∧ rule e.2 x
  key_iff : ∀ m, decoded m → ∀ b, (∃ x, (b, x) ∈ m.entries) ↔ ∃ e ∈ ms, b.SpelledBy e.1
  of_distinct : Distinct size ms → ∀ m, decoded m → m.entries.length = ms.length ∧
    ∀ e ∈ ms, ∃ b x, b.SpelledBy e.1 ∧ rule e.2 x ∧ (b, x) ∈ m.entries

theorem lossless_of_gathered {α : Type} {size : Nat} {rule : Json → α → Prop}
    (hrule : Relator.RightUnique rule) {ms : List (String × Json)}
    {decides : FixedBytes size → String × Json → Prop}
    (hdecides : ∀ b e, decides b e ↔ LastPlace ms b e)
    {decoded : OrderedMap (FixedBytes size) α → Prop}
    (hdecoded : ∀ m, decoded m ↔ Gathered size rule ms m) :
    Lossless size rule ms decides decoded where
  exists_iff := (exists_congr hdecoded).trans (exists_gathered_iff hrule)
  ascending m _ := m.ascending
  mem_iff m hm b x := by
    simp only [hdecides]
    exact ((hdecoded m).mp hm).mem_iff b x
  key_iff m hm b := by
    have hgathered := (hdecoded m).mp hm
    simp only [hgathered.mem_iff]
    constructor
    · rintro ⟨x, e, hlast, -⟩
      exact ⟨e, hlast.mem⟩
    · intro he
      obtain ⟨e, hlast⟩ := exists_lastWith he
      obtain ⟨x, hx⟩ := hgathered.given e hlast.mem.1
      exact ⟨x, e, hlast, hx⟩
  of_distinct hms m hm := ((hdecoded m).mp hm).of_distinct hrule hms

/-- Decoding overrides loses no account and invents none: of the members that spell an address, the
one of the greatest name decides in a value, and the last one in a text. Each member is an override
whose two storages are decoded in the same manner. -/
theorem lossless_overrides :
    (∀ ms, Ascending ms →
      Lossless 20 (fun v o => OnWire.ofJson v = .ok (o : AccountOverride)) ms (GreatestName ms)
        fun m => OnWire.ofJson (.object ms) = .ok (StateOverrides.mk m)) ∧
    (∀ text ms, Json.document text = .ok (.object ms) →
      Lossless 20 (IsOverride (FixedInText 32)) ms (LastPlace ms)
        fun m => OnWire.ofBytes text = .ok (StateOverrides.mk m)) ∧
    (∀ v o, OnWire.ofJson v = .ok o ↔ IsOverride IsWord v o) ∧
    (∀ text d, Json.document text = .ok d →
      ∀ o, OnWire.ofBytes text = .ok o ↔ IsOverride (FixedInText 32) d o) ∧
    (∀ ms, Ascending ms →
      Lossless 32 IsWord ms (GreatestName ms) (Dictionary 32 IsWord (.object ms))) ∧
    ∀ ms, Lossless 32 (FixedInText 32) ms (LastPlace ms)
      (Dictionary 32 (FixedInText 32) (.object ms)) := by
  have hlast {size : Nat} {ms : List (String × Json)} (hms : Ascending ms) (b : FixedBytes size)
      (e : String × Json) : GreatestName ms b e ↔ LastPlace ms b e :=
    (lastWith_iff_of_ascending (p := fun e => b.SpelledBy e.1) hms).symm
  have hword : Relator.RightUnique IsWord := fun _ _ _ ha hb => Except.ok.inj (ha.symm.trans hb)
  have hvalue : (fun v o => OnWire.ofJson v = .ok (o : AccountOverride)) = IsOverride IsWord :=
    funext fun _ => funext fun _ => propext AccountOverride.ofJson_iff
  refine ⟨fun ms hms => ?_, fun text ms hdocument => ?_, fun v o => AccountOverride.ofJson_iff,
    fun text d hd o => AccountOverride.ofBytes_iff hd, fun ms hms => ?_, fun ms => ?_⟩
  · rw [hvalue]
    exact lossless_of_gathered (rightUnique_isOverride IsWord) (hlast hms) fun m => ofJson_iff
  · exact lossless_of_gathered (rightUnique_isOverride (FixedInText 32)) (fun _ _ => Iff.rfl)
      fun m => ofBytes_iff hdocument
  · exact lossless_of_gathered hword (hlast hms) fun m => Iff.rfl
  · exact lossless_of_gathered (rightUnique_fixedInText 32) (fun _ _ => Iff.rfl) fun m => Iff.rfl

def one : Address := ⟨List.replicate 19 0 ++ [1], rfl⟩

def withNonce (n : Word 64) : AccountOverride := ⟨some n, none, none, none, none⟩

def unmarked : String × Json := ("0000000000000000000000000000000000000001", .object [])

def marked : String × Json :=
  ("0x0000000000000000000000000000000000000001", .object [("nonce", .string "0x2")])

def markedInUpperCase : String × Json :=
  ("0X0000000000000000000000000000000000000001", .object [("nonce", .integer 1)])

theorem isOverride_nonce {word : Json → Hash → Prop} {v : Json} {n : Word 64} (hv : v ≠ .null)
    (h : quantityOfJson 64 v = .ok n) : IsOverride word (.object [("nonce", v)]) (withNonce n) :=
  ⟨.present (.given hv h), .absent nofun, .absent nofun, .absent nofun, .absent nofun, trivial⟩

theorem isOverride_marked (word : Json → Hash → Prop) :
    IsOverride word marked.2 (withNonce ⟨2, by decide⟩) := isOverride_nonce nofun rfl

theorem isOverride_markedInUpperCase (word : Json → Hash → Prop) :
    IsOverride word markedInUpperCase.2 (withNonce ⟨1, by decide⟩) := isOverride_nonce nofun rfl

theorem spellings_decoded (word : Json → Hash → Prop) :
    ∀ e ∈ [unmarked, markedInUpperCase, marked],
      one.SpelledBy e.1 ∧ ∃ o, IsOverride word e.2 o := by
  simp only [FixedBytes.spelledBy_iff, List.forall_mem_cons]
  refine ⟨⟨rfl, ⟨none, none, none, none, none⟩, ?_⟩,
    ⟨rfl, _, isOverride_markedInUpperCase word⟩, ⟨rfl, _, isOverride_marked word⟩, nofun⟩
  exact ⟨.absent nofun, .absent nofun, .absent nofun, .absent nofun, .absent nofun, trivial⟩

theorem document_spellings :
    Json.document (Text.utf8 (Json.object [marked, unmarked, markedInUpperCase]).compact) =
      .ok (.object [marked, unmarked, markedInUpperCase]) := by
  refine Json.document_compact (.object fun e he => ?_) (by decide)
  simp only [List.mem_cons, List.not_mem_nil, or_false] at he
  obtain rfl | rfl | rfl := he
  · exact .object fun m hm => List.mem_singleton.mp hm ▸ .string _
  · exact .object nofun
  · exact .object fun m hm => List.mem_singleton.mp hm ▸ .integer (by decide)

/-- Three names of one address, in the order of the names and in another one. -/
theorem lossless_overrides_spellings :
    (∃ m, OnWire.ofJson (.object [unmarked, markedInUpperCase, marked]) =
        .ok (StateOverrides.mk m) ∧ (one, withNonce ⟨2, by decide⟩) ∈ m.entries) ∧
    ∃ m, OnWire.ofBytes (Text.utf8 (Json.object [marked, unmarked, markedInUpperCase]).compact) =
        .ok (StateOverrides.mk m) ∧ (one, withNonce ⟨1, by decide⟩) ∈ m.entries := by
  constructor
  · have hms : Ascending [unmarked, markedInUpperCase, marked] := by
      unfold Ascending
      decide
    have h := lossless_overrides.1 _ hms
    have hdecoded : ∀ e ∈ [unmarked, markedInUpperCase, marked],
        (∃ n, Hex.Spells 20 e.1 n) ∧ ∃ o : AccountOverride, OnWire.ofJson e.2 = .ok o := by
      intro e he
      obtain ⟨hspelled, o, ho⟩ := spellings_decoded IsWord e he
      exact ⟨⟨_, hspelled⟩, o, AccountOverride.ofJson_iff.mpr ho⟩
    obtain ⟨m, hm⟩ := h.exists_iff.mpr hdecoded
    have hgreatest : GreatestName [unmarked, markedInUpperCase, marked] one marked := by
      refine ⟨by simp, (spellings_decoded IsWord marked (by simp)).1, fun f hf _ => ?_⟩
      simp only [List.mem_cons, List.not_mem_nil, or_false] at hf
      obtain rfl | rfl | rfl := hf <;> decide
    exact ⟨m, hm, (h.mem_iff m hm _ _).mpr
      ⟨marked, hgreatest, AccountOverride.ofJson_iff.mpr (isOverride_marked IsWord)⟩⟩
  · have h := lossless_overrides.2.1 _ _ document_spellings
    have hdecoded : ∀ e ∈ [marked, unmarked, markedInUpperCase],
        (∃ n, Hex.Spells 20 e.1 n) ∧ ∃ o, IsOverride (FixedInText 32) e.2 o := by
      intro e he
      obtain ⟨hspelled, ho⟩ := spellings_decoded (FixedInText 32) e (by
        simpa only [List.mem_cons, or_comm, or_assoc, or_left_comm] using he)
      exact ⟨⟨_, hspelled⟩, ho⟩
    obtain ⟨m, hm⟩ := h.exists_iff.mpr hdecoded
    have hlast : LastPlace [marked, unmarked, markedInUpperCase] one markedInUpperCase :=
      ⟨[marked, unmarked], [], rfl,
        (spellings_decoded (FixedInText 32) markedInUpperCase (by simp)).1, nofun⟩
    exact ⟨m, hm, (h.mem_iff m hm _ _).mpr
      ⟨markedInUpperCase, hlast, isOverride_markedInUpperCase _⟩⟩

end StateOverrides

end Provider

end ChainGateway
