import ChainGateway.Proofs.DocumentReading
import ChainGateway.Proofs.EnvelopeText
import ChainGateway.Proofs.Transcript

namespace ChainGateway

namespace Json

def field? (name : String) (place : Nat) : Json → Option Json
  | object ms => ms.lookup name
  | array vs => vs[place]?
  | _ => none

inductive Framed (size : Nat) : Json → Prop where
  | object (ms : List (String × Json)) : Framed size (object ms)
  | array {vs : List Json} : vs.length ≤ size → Framed size (array vs)

theorem framed_array_iff {size : Nat} {vs : List Json} :
    (array vs).Framed size ↔ vs.length ≤ size := by
  constructor
  · intro h
    cases h with
    | array hlength => exact hlength
  · exact .array

/-- A list holds its items, and an object the values of its members. -/
inductive Holds : Json → Json → Prop where
  | item {vs : List Json} {v : Json} : v ∈ vs → Holds (array vs) v
  | member {ms : List (String × Json)} {m : String × Json} : m ∈ ms → Holds (object ms) m.2

theorem Holds.nesting_lt {d v : Json} (h : d.Holds v) : v.nesting < d.nesting := by
  cases h with
  | item hv => exact Nat.lt_succ_of_le (nesting_le_of_mem_items hv)
  | member hm => exact Nat.lt_succ_of_le (nesting_le_of_mem_members hm)

theorem Plain.of_holds {d v : Json} (hd : d.Plain) (h : d.Holds v) : v.Plain := by
  cases h with
  | item hv =>
    cases hd with
    | array hvs => exact hvs _ hv
  | member hm =>
    cases hd with
    | object _ hms => exact hms _ hm

def Distinct : Json → Prop
  | object ms => (ms.map Prod.fst).Nodup
  | _ => True

theorem lookup_eq_head? (name : String) (ms : List (String × Json)) :
    ms.lookup name = (valuesOf name ms).head? := by
  induction ms with
  | nil => rfl
  | cons m ms ih =>
    rw [List.lookup_cons, ← List.singleton_append, valuesOf_append, valuesOf_singleton]
    by_cases h : m.1 = name
    · simp [h]
    · have hne : (name == m.1) = false := by simpa using Ne.symm h
      simp [h, ih, hne]

theorem length_valuesOf_le_one {name : String} {ms : List (String × Json)}
    (h : (ms.map Prod.fst).Nodup) : (valuesOf name ms).length ≤ 1 := by
  induction ms with
  | nil => exact Nat.zero_le 1
  | cons m ms ih =>
    obtain ⟨hm, hms⟩ := List.nodup_cons.mp h
    rw [← List.singleton_append, valuesOf_append, valuesOf_singleton]
    by_cases hname : m.1 = name
    · have hnone : valuesOf name ms = [] := valuesOf_eq_nil fun m' hm' heq =>
        hm (List.mem_map.mpr ⟨m', hm', heq.trans hname.symm⟩)
      simp [hname, hnone]
    · simpa [hname] using ih hms

theorem valuesOf_eq_lookup {name : String} {ms : List (String × Json)}
    (h : (ms.map Prod.fst).Nodup) : valuesOf name ms = (ms.lookup name).toList := by
  have hlength : (valuesOf name ms).length ≤ 1 := length_valuesOf_le_one h
  rw [lookup_eq_head?]
  cases hvalues : valuesOf name ms with
  | nil => rfl
  | cons v vs =>
    rw [hvalues] at hlength
    obtain rfl := List.eq_nil_of_length_eq_zero (Nat.le_zero.mp (Nat.le_of_succ_le_succ hlength))
    rfl

end Json

namespace Wire

def Fields.HeldBy (given : String → Nat → Option Json) :
    (fields : Fields) → (place : Nat) → fields.Rules → fields.Carrier → Prop
  | .nil, _, _, _ => True
  | .cons name presence shape rest, place, (rule, rules), (x, y) =>
    Held presence rule shape.empty (given name place).toList x ∧
      rest.HeldBy given (place + 1) rules y

theorem heldBy_cons_iff {given : String → Nat → Option Json} {place : Nat} {name : String}
    {presence : Presence} {shape : Shape} {rest : Fields} {rule : Json → shape.Carrier → Prop}
    {rules : rest.Rules} {x : shape.Carrier} {y : rest.Carrier} :
    (Fields.cons name presence shape rest).HeldBy given place (rule, rules) (x, y) ↔
      Held presence rule shape.empty (given name place).toList x ∧
        rest.HeldBy given (place + 1) rules y := Iff.rfl

theorem filled_iff_heldBy {ms : List (String × Json)} (h : (ms.map Prod.fst).Nodup) :
    {fields : Fields} → {rules : fields.Rules} → {place : Nat} → {x : fields.Carrier} →
    (fields.Filled ms rules x ↔ fields.HeldBy (fun name _ => ms.lookup name) place rules x)
  | .nil, _, _, _ => Iff.rfl
  | .cons name presence shape rest, (rule, rules), place, (x, y) => by
    have hrest : rest.Filled ms rules y ↔
        rest.HeldBy (fun name _ => ms.lookup name) (place + 1) rules y := filled_iff_heldBy h
    rw [filled_cons_iff, heldBy_cons_iff, Json.valuesOf_eq_lookup h, hrest]

theorem itemized_iff_heldBy {vs : List Json} :
    {fields : Fields} → {rules : fields.Rules} → {place : Nat} → {x : fields.Carrier} →
    (fields.Itemized rules (vs.drop place) x ↔
      vs.length ≤ place + fields.length ∧ fields.HeldBy (fun _ place => vs[place]?) place rules x)
  | .nil, _, place, () => by
    change vs.drop place = [] ↔ vs.length ≤ place + 0 ∧ True
    simp
  | .cons name presence shape rest, (rule, rules), place, (x, y) => by
    have hitem : (vs.drop place).take 1 = vs[place]?.toList := by
      rw [List.take_one, List.head?_drop]
    rw [itemized_cons_iff, heldBy_cons_iff, List.drop_drop, itemized_iff_heldBy, hitem,
      Fields.length]
    rw [Nat.add_comm rest.length 1, ← Nat.add_assoc]
    tauto

/-- A document without repeated names records data exactly if it is framed for their fields, and
what it gives for each field holds it. -/
theorem recorded_iff_heldBy {fields : Fields} {rules : fields.Rules} {d : Json} (h : d.Distinct)
    {x : fields.Carrier} :
    fields.Recorded rules d x ↔ d.Framed fields.length ∧ fields.HeldBy d.field? 0 rules x := by
  cases d with
  | object ms =>
    exact (filled_iff_heldBy h).trans (and_iff_right (.object ms)).symm
  | array vs =>
    have hitems : fields.Itemized rules (vs.drop 0) x ↔ vs.length ≤ 0 + fields.length ∧
        fields.HeldBy (fun _ place => vs[place]?) 0 rules x := itemized_iff_heldBy
    rw [List.drop_zero, Nat.zero_add] at hitems
    rw [Json.framed_array_iff]
    exact hitems
  | _ => exact iff_of_false id fun h => nomatch h.1

section

variable {α : Type} {stands : Json → α → Prop}

/-- A field that is left out is empty, and one that is given is what its value stands for. -/
inductive Given (stands : Json → α → Prop) (empty : α) : Option Json → α → Prop where
  | absent : Given stands empty none empty
  | given {v : Json} {a : α} : stands v a → Given stands empty (some v) a

theorem exists_given_iff {empty : α} {o : Option Json} :
    (∃ a, Given stands empty o a) ↔ ∀ v, o = some v → ∃ a, stands v a := by
  constructor
  · rintro ⟨a, h⟩ v rfl
    cases h with
    | given hv => exact ⟨a, hv⟩
  · intro h
    cases o with
    | none => exact ⟨empty, .absent⟩
    | some v =>
      obtain ⟨a, hv⟩ := h v rfl
      exact ⟨a, .given hv⟩

theorem exists_orNull_iff {v : Json} :
    (∃ o, OrNull stands v o) ↔ v = .null ∨ ∃ a, stands v a := by
  constructor
  · rintro ⟨o, h⟩
    cases h with
    | null => exact Or.inl rfl
    | given _ hv => exact Or.inr ⟨_, hv⟩
  · intro h
    by_cases hnull : v = .null
    · exact ⟨none, hnull ▸ .null⟩
    · obtain ⟨a, hv⟩ := h.resolve_left hnull
      exact ⟨some a, .given hnull hv⟩

end

section

variable {α β : Type} {rule : Json → α → Prop} {stands : Json → β → Prop} {presence : Presence}
  {empty a : α} {o : Option Json}

theorem Held.given (h : Held presence rule empty o.toList a) : Given rule empty o a := by
  cases o with
  | none => exact (held_nil_iff.mp h).2 ▸ .absent
  | some v => exact .given (held_singleton_iff.mp h)

theorem Given.held (h : Given rule empty o a) (hpresence : presence ≠ .required) :
    Held presence rule empty o.toList a := by
  cases h with
  | absent => exact .absent hpresence
  | given hv => exact .present hv

theorem given_orNull_map_iff {f : β → α} {o' : Option β}
    (h : ∀ v, o = some v → ∀ b, rule v (f b) ↔ stands v b) :
    Given (OrNull rule) none o (o'.map f) ↔ Given (OrNull stands) none o o' := by
  constructor
  · intro hgiven
    generalize ho : o'.map f = a' at hgiven
    cases hgiven with
    | absent =>
      obtain rfl := Option.map_eq_none_iff.mp ho
      exact .absent
    | given hv =>
      cases hv with
      | null =>
        obtain rfl := Option.map_eq_none_iff.mp ho
        exact .given .null
      | given hne hx =>
        obtain ⟨x, rfl, rfl⟩ := Option.map_eq_some_iff.mp ho
        exact .given (.given hne ((h _ rfl x).mp hx))
  · intro hgiven
    cases hgiven with
    | absent => exact .absent
    | given hv =>
      cases hv with
      | null => exact .given .null
      | given hne hx => exact .given (.given hne ((h _ rfl _).mpr hx))

end

end Wire

namespace Rpc

open Wire

def IsText (v : Json) (t : String) : Prop := v = .string t

def IsSigned (v : Json) (n : SignedWord) : Prop := v = .integer n.toInt

/-- An identifier is an integer of sixty-four bits without a sign, a string or null. -/
inductive IsId : Json → RequestId → Prop where
  | number (n : Word 64) : IsId (.integer n.toNat) (.number n)
  | string (s : String) : IsId (.string s) (.string s)
  | null : IsId .null .null

/-- Any value is itself, but for the order of its members and for the texts it embeds. -/
def IsValue (v w : Json) : Prop := v.reread Json.ofBytes = .ok w

theorem isValue_iff_of_plain {v w : Json} (h : v.Plain) : IsValue v w ↔ w = v.sorted := by
  rw [IsValue, Json.reread_of_plain h, Except.ok.injEq, eq_comm]

structure ErrorObject (v : Json) (e : NodeError) : Prop where
  framed : v.Framed 3
  code : Given IsSigned 0 (v.field? "code" 0) e.code
  message : Given IsText "" (v.field? "message" 1) e.message
  data : Given (OrNull IsValue) none (v.field? "data" 2) e.data

structure Envelope (v : Json) (r : Response) : Prop where
  framed : v.Framed 5
  id : Given IsId .null (v.field? "id" 0) r.id
  jsonrpc : Given IsText "" (v.field? "jsonrpc" 1) r.jsonrpc
  message : Given (OrNull IsText) none (v.field? "message" 2) r.message
  result : Given (OrNull IsValue) none (v.field? "result" 3) r.result
  error : Given (OrNull ErrorObject) none (v.field? "error" 4) r.error

/-- An error object is an object or a list of at most three items, with a code and a message of
their kinds if it has any; its data may be any value. -/
structure LooseError (v : Json) : Prop where
  framed : v.Framed 3
  code : ∀ w, v.field? "code" 0 = some w → ∃ n, IsSigned w n
  message : ∀ w, v.field? "message" 1 = some w → ∃ t, IsText w t
  data : ∀ w, v.field? "data" 2 = some w → ∃ x, IsValue w x

/-- An envelope is an object or a list of at most five items, with fields of their kinds as far as
it has them; the result may be any value. -/
structure LooseEnvelope (v : Json) : Prop where
  framed : v.Framed 5
  id : ∀ w, v.field? "id" 0 = some w → ∃ id, IsId w id
  jsonrpc : ∀ w, v.field? "jsonrpc" 1 = some w → ∃ t, IsText w t
  message : ∀ w, v.field? "message" 2 = some w → w = .null ∨ ∃ t, IsText w t
  result : ∀ w, v.field? "result" 3 = some w → ∃ x, IsValue w x
  error : ∀ w, v.field? "error" 4 = some w → w = .null ∨ LooseError w

theorem exists_given_value_iff {o : Option Json} :
    (∃ x, Given (OrNull IsValue) none o x) ↔ ∀ w, o = some w → ∃ x, IsValue w x := by
  rw [exists_given_iff]
  refine forall₂_congr fun w _ => exists_orNull_iff.trans (or_iff_right_of_imp ?_)
  rintro rfl
  exact ⟨.null, rfl⟩

theorem looseError_iff {v : Json} : LooseError v ↔ ∃ e, ErrorObject v e := by
  constructor
  · intro h
    obtain ⟨code, hcode⟩ := exists_given_iff.mpr h.code
    obtain ⟨message, hmessage⟩ := exists_given_iff.mpr h.message
    obtain ⟨data, hdata⟩ := exists_given_value_iff.mpr h.data
    exact ⟨⟨code, message, data⟩, h.framed, hcode, hmessage, hdata⟩
  · rintro ⟨e, h⟩
    exact ⟨h.framed, exists_given_iff.mp ⟨_, h.code⟩, exists_given_iff.mp ⟨_, h.message⟩,
      exists_given_value_iff.mp ⟨_, h.data⟩⟩

theorem looseEnvelope_iff {v : Json} : LooseEnvelope v ↔ ∃ r, Envelope v r := by
  have herrors {w : Json} : (∃ o, OrNull ErrorObject w o) ↔ w = .null ∨ LooseError w := by
    rw [exists_orNull_iff, looseError_iff]
  constructor
  · intro h
    obtain ⟨id, hid⟩ := exists_given_iff.mpr h.id
    obtain ⟨jsonrpc, hjsonrpc⟩ := exists_given_iff.mpr h.jsonrpc
    obtain ⟨message, hmessage⟩ := exists_given_iff.mpr fun w hw =>
      exists_orNull_iff.mpr (h.message w hw)
    obtain ⟨result, hresult⟩ := exists_given_value_iff.mpr h.result
    obtain ⟨error, herror⟩ := exists_given_iff.mpr fun w hw => herrors.mpr (h.error w hw)
    exact ⟨⟨id, jsonrpc, message, result, error⟩, h.framed, hid, hjsonrpc, hmessage, hresult,
      herror⟩
  · rintro ⟨r, h⟩
    exact ⟨h.framed, exists_given_iff.mp ⟨_, h.id⟩, exists_given_iff.mp ⟨_, h.jsonrpc⟩,
      fun w hw => exists_orNull_iff.mp (exists_given_iff.mp ⟨_, h.message⟩ w hw),
      exists_given_value_iff.mp ⟨_, h.result⟩,
      fun w hw => herrors.mp (exists_given_iff.mp ⟨_, h.error⟩ w hw)⟩

theorem isId_iff {v : Json} {id : RequestId} : IsId v id ↔ v = Shape.requestId.toJson id := by
  constructor
  · intro h
    cases h <;> rfl
  · rintro rfl
    cases id with
    | number n => exact .number n
    | string s => exact .string s
    | null => exact .null

theorem isId_eq : IsId = fun v id => v = Shape.requestId.toJson id :=
  funext fun _ => funext fun _ => propext isId_iff

namespace NodeError

def fields : Fields :=
  .cons "code" .defaulted .signed <|
  .cons "message" .defaulted .text <|
  .cons "data" .omittable (.nullable .value) .nil

def rules : fields.Rules := (IsSigned, IsText, OrNull IsValue, ())

theorem names_nodup : fields.names.Nodup := by decide

theorem obey_readBy : fields.Obey Shape.ReadBy rules :=
  ⟨readBy_signed, readBy_text, readBy_nullable readBy_value, trivial⟩

theorem obey_followedBy : fields.Obey Shape.FollowedBy rules :=
  ⟨followedBy_signed, followedBy_text, followedBy_nullable followedBy_value, trivial⟩

end NodeError

namespace Response

def fields : Fields :=
  .cons "id" .defaulted .requestId <|
  .cons "jsonrpc" .defaulted .text <|
  .cons "message" .omittable (.nullable .text) <|
  .cons "result" .omittable (.nullable .value) <|
  .cons "error" .omittable (.nullable (OnWire.shape NodeError)) .nil

def rules : fields.Rules :=
  (IsId, IsText, OrNull IsText, OrNull IsValue,
    OrNull (NodeError.fields.Recorded NodeError.rules), ())

theorem names_nodup : fields.names.Nodup := by decide

theorem obey_readBy : fields.Obey Shape.ReadBy rules :=
  ⟨isId_eq ▸ readBy_requestId, readBy_text, readBy_nullable readBy_text,
    readBy_nullable readBy_value,
    readBy_nullable (readBy_record NodeError.obey_readBy NodeError.names_nodup), trivial⟩

theorem obey_followedBy : fields.Obey Shape.FollowedBy rules :=
  ⟨isId_eq ▸ followedBy_requestId, followedBy_text, followedBy_nullable followedBy_text,
    followedBy_nullable followedBy_value,
    followedBy_nullable (followedBy_record NodeError.obey_followedBy NodeError.names_nodup),
    trivial⟩

end Response

/-- Neither an envelope nor the error object in it has a member name twice. -/
def Unrepeated (d : Json) : Prop :=
  d.Distinct ∧ ∀ e, d.field? "error" 4 = some e → e.Distinct

section

variable {d : Json}

theorem recorded_nodeError_iff (h : d.Distinct) {e : NodeError} :
    NodeError.fields.Recorded NodeError.rules d (OnWire.pack e) ↔ ErrorObject d e := by
  refine (recorded_iff_heldBy h).trans ?_
  constructor
  · rintro ⟨hframed, hcode, hmessage, hdata, -⟩
    exact ⟨hframed, hcode.given, hmessage.given, hdata.given⟩
  · rintro ⟨hframed, hcode, hmessage, hdata⟩
    exact ⟨hframed, hcode.held nofun, hmessage.held nofun, hdata.held nofun, trivial⟩

theorem recorded_response_iff (h : Unrepeated d) {r : Response} :
    Response.fields.Recorded Response.rules d (OnWire.pack r) ↔ Envelope d r := by
  obtain ⟨hdistinct, herrors⟩ := h
  have herror : Given (OrNull (NodeError.fields.Recorded NodeError.rules)) none
      (d.field? "error" 4) (r.error.map OnWire.pack) ↔
        Given (OrNull ErrorObject) none (d.field? "error" 4) r.error :=
    given_orNull_map_iff fun v hv e => recorded_nodeError_iff (herrors v hv)
  refine (recorded_iff_heldBy hdistinct).trans ?_
  constructor
  · rintro ⟨hframed, hid, hjsonrpc, hmessage, hresult, hfault, -⟩
    exact ⟨hframed, hid.given, hjsonrpc.given, hmessage.given, hresult.given,
      herror.mp hfault.given⟩
  · rintro ⟨hframed, hid, hjsonrpc, hmessage, hresult, hfault⟩
    exact ⟨hframed, hid.held nofun, hjsonrpc.held nofun, hmessage.held nofun, hresult.held nofun,
      (herror.mpr hfault).held nofun, trivial⟩

end

theorem pack_unpack (x : (OnWire.shape Response).Carrier) :
    OnWire.pack (OnWire.unpack x : Response) = x := by
  obtain ⟨id, jsonrpc, message, result, error, ⟨⟩⟩ := x
  have herror : (error.map OnWire.unpack : Option NodeError).map OnWire.pack = error := by
    cases error <;> rfl
  exact congrArg (fun error => (id, jsonrpc, message, result, error, ())) herror

/-- A reply is read from a document exactly if the document records it. -/
theorem ofBytes_eq_ok_iff_recorded {text : List UInt8} {d : Json} (hd : Json.document text = .ok d)
    {r : Response} : OnWire.ofBytes text = .ok r ↔
      Response.fields.Recorded Response.rules d (OnWire.pack r) :=
  (OnWire.ofBytes_eq_ok_iff Response.unpack_pack pack_unpack).trans
    (ofBytes_eq_ok_iff (followedBy_record Response.obey_followedBy Response.names_nodup) hd)

/-- The result of a reply is what stands for it somewhere in the document. -/
theorem exists_given_of_result {text : List UInt8} {d v : Json} {r : Response}
    (hd : Json.document text = .ok d) (hr : OnWire.ofBytes text = .ok r)
    (hv : r.result = some v) : ∃ w, d.Holds w ∧ IsValue w v := by
  have hheld {vs : List Json} (h : Held .omittable (OrNull IsValue) none vs r.result) :
      ∃ w ∈ vs, IsValue w v := by
    rw [hv] at h
    cases h with
    | present hw =>
      cases hw with
      | given _ hw => exact ⟨_, List.mem_cons_self, hw⟩
  have hrecorded := (ofBytes_eq_ok_iff_recorded hd).mp hr
  cases d with
  | object ms =>
    obtain ⟨-, -, -, hresult, -⟩ := hrecorded
    obtain ⟨w, hw, hread⟩ := hheld hresult
    obtain ⟨m, hm, rfl⟩ := List.mem_map.mp hw
    exact ⟨m.2, .member (List.mem_filter.mp hm).1, hread⟩
  | array vs =>
    obtain ⟨-, -, -, hresult, -⟩ := hrecorded
    obtain ⟨w, hw, hread⟩ := hheld hresult
    have hw' := List.mem_of_mem_take hw
    exact ⟨w, .item (List.mem_of_mem_drop (List.mem_of_mem_drop (List.mem_of_mem_drop hw'))), hread⟩
  | _ => exact hrecorded.elim

/-- A text in which neither the envelope nor the error object in it repeats a member name is a reply
exactly if it is a loose envelope, and then the reply is what the envelope holds. A value in which
nothing is embedded is held as it is given. -/
theorem decoded_iff_envelope {text : List UInt8} {d : Json} (hd : Json.document text = .ok d)
    (hnames : Unrepeated d) :
    ((∃ r : Response, OnWire.ofBytes text = .ok r) ↔ LooseEnvelope d) ∧
      (∀ r : Response, OnWire.ofBytes text = .ok r ↔ Envelope d r) ∧
      ∀ v w : Json, v.Plain → (IsValue v w ↔ w = v.sorted) := by
  have hdecoded (r : Response) : OnWire.ofBytes text = .ok r ↔ Envelope d r :=
    (ofBytes_eq_ok_iff_recorded hd).trans (recorded_response_iff hnames)
  refine ⟨?_, hdecoded, fun v w => isValue_iff_of_plain⟩
  simp only [looseEnvelope_iff, hdecoded]

def looseText : List UInt8 :=
  [123, 34, 114, 101, 115, 117, 108, 116, 34, 58, 34, 111, 107, 34, 44, 34, 105, 100, 34, 58, 55,
    44, 34, 101, 114, 114, 111, 114, 34, 58, 91, 48, 93, 44, 34, 120, 34, 58, 123, 125, 125]

def looseDocument : Json :=
  .object [("result", .string "ok"), ("id", .integer 7), ("error", .array [.integer 0]),
    ("x", .object [])]

def looseReply : Response :=
  ⟨.number ⟨7, by decide⟩, "", none, some (.string "ok"), some ⟨0, "", none⟩⟩

theorem decoded_iff_envelope_looseText :
    Json.document looseText = .ok looseDocument ∧ Unrepeated looseDocument ∧
      LooseEnvelope looseDocument ∧ Envelope looseDocument looseReply := by
  have hd : Json.document looseText = .ok looseDocument := rfl
  have hnames : Unrepeated looseDocument := by
    have hdistinct : ["result", "id", "error", "x"].Nodup := by decide
    refine ⟨hdistinct, fun e he => ?_⟩
    obtain rfl := Option.some.inj he
    trivial
  have hreply : OnWire.ofBytes looseText = .ok looseReply := rfl
  obtain ⟨hloose, henvelope, -⟩ := decoded_iff_envelope hd hnames
  exact ⟨hd, hnames, hloose.mp ⟨looseReply, hreply⟩, (henvelope looseReply).mp hreply⟩

def embeddingText : List UInt8 :=
  [123, 34, 36, 115, 101, 114, 100, 101, 95, 106, 115, 111, 110, 58, 58, 112, 114, 105, 118, 97,
    116, 101, 58, 58, 82, 97, 119, 86, 97, 108, 117, 101, 34, 58, 34, 49, 34, 125]

def embeddingDocument : Json := .object [(Json.embeddingName, .string "1")]

def embeddingResultText : List UInt8 :=
  [123, 34, 114, 101, 115, 117, 108, 116, 34, 58] ++ embeddingText ++ [125]

/-- An object that embeds a text is not held as it is given; and where it takes the place of the
envelope, the value of the text is not looked at. -/
theorem embedded_not_held :
    (Json.document embeddingResultText = .ok (.object [("result", embeddingDocument)]) ∧
      OnWire.ofBytes embeddingResultText =
        .ok (⟨.null, "", none, some (.integer 1), none⟩ : Response)) ∧
    Json.document embeddingText = .ok embeddingDocument ∧
      Json.ofBytes embeddingText = .ok (.integer 1) ∧
      OnWire.ofBytes embeddingText = .ok (⟨.null, "", none, none, none⟩ : Response) := by
  have hone : IsValue embeddingDocument (.integer 1) :=
    Json.reread_embedding (v := .integer 1) (.integer rfl) (Nat.zero_le _)
  have hd : Json.document embeddingText = .ok embeddingDocument := rfl
  have hresult :
      Json.document embeddingResultText = .ok (.object [("result", embeddingDocument)]) := rfl
  refine ⟨⟨hresult, ?_⟩, hd, Json.ofBytes_eq_ok_iff.mpr ⟨_, hd, hone⟩, rfl⟩
  refine (ofBytes_eq_ok_iff_recorded hresult).mpr ?_
  exact ⟨.absent nofun, .absent nofun, .absent nofun, .present (.given nofun hone), .absent nofun,
    trivial⟩

end Rpc

end ChainGateway
