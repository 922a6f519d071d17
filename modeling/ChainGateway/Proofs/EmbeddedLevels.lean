import ChainGateway.Proofs.EmbeddedText
import ChainGateway.Proofs.Utf8

namespace ChainGateway.Json

namespace Reader

variable {c c' : Cursor}

theorem left_of_codeUnit {n : Nat} (h : codeUnit c = .ok n c') : c'.left + 4 ≤ c.left := by
  unfold codeUnit at h
  obtain ⟨_, _, hget, h⟩ := bind_eq_ok_iff.mp h
  obtain ⟨rfl, rfl⟩ := EStateM.Result.ok.inj hget
  obtain ⟨_, _, hmodify, h⟩ := bind_eq_ok_iff.mp h
  obtain ⟨-, rfl⟩ := EStateM.Result.ok.inj hmodify
  split_ifs at h with hshort
  · exact absurd h failHere_ne_ok
  · cases hdigits : fourDigits? (c.rest.take 4) with
    | none => simp [hdigits] at h
    | some m =>
      rw [hdigits] at h
      obtain ⟨-, rfl⟩ := EStateM.Result.ok.inj h
      rw [List.length_take] at hshort ⊢
      rw [Cursor.left, rest_advanceBy, List.length_drop, Cursor.left]
      omega

theorem utf8Size_of_escaped? {b : UInt8} {ch : Char} (h : escaped? b = some ch) :
    ch.utf8Size = 1 := by
  have hall : ∀ ch ∈ escaped? b, ch.utf8Size = 1 := by
    unfold escaped?
    iterate 8
      refine iteInduction (motive := fun letter : Option Char => ∀ ch ∈ letter, ch.utf8Size = 1)
        (fun _ _ hsome => Option.some.inj hsome ▸ rfl) fun _ => ?_
    exact fun _ hnone => absurd hnone (Option.not_mem_none _)
  exact hall ch h

theorem escapeSequence_letter {e : UInt8} {ch : Char} (he : c.rest.head? = some e) (hne : e ≠ 117)
    (hch : escaped? e = some ch) : escapeSequence c = .ok ch c.advance := by
  rw [escapeSequence, bind_of_eq_ok (within_eq_ok_iff.mpr ⟨he, rfl⟩), if_neg hne, hch]
  rfl

/-- An escape has no fewer bytes behind its backslash than the character it stands for. -/
theorem length_of_escapeSequence {ch : Char} (h : escapeSequence c = .ok ch c') :
    (String.utf8EncodeChar ch).length + c'.left ≤ c.left := by
  have hescape := escape_of_escapeSequence h
  have hsize := ch.utf8Size_le_four
  rw [String.length_utf8EncodeChar]
  cases hescape with
  | @letter e he hne hsome =>
    have hleft := Cursor.left_advance_of_head? he
    obtain ⟨ch', hch⟩ := Option.ne_none_iff_exists'.mp hsome
    rw [escapeSequence_letter he hne hch] at h
    obtain ⟨rfl, -⟩ := EStateM.Result.ok.inj h
    rw [utf8Size_of_escaped? hch]
    omega
  | unit he hunit =>
    have hleft := Cursor.left_advance_of_head? he
    have hunit' := left_of_codeUnit hunit
    omega
  | pair he hunit hhead he' hunit' =>
    -- two units make up a character of four bytes at most
    have hleft := Cursor.left_advance_of_head? he
    have hfirst := left_of_codeUnit hunit
    have hbackslash := Cursor.left_advance_of_head? hhead
    have hleft' := Cursor.left_advance_of_head? he'
    have hsecond := left_of_codeUnit hunit'
    omega

theorem length_of_stringBytes {fuel : Nat} {acc bs : List UInt8}
    (h : stringBytes fuel acc c = .ok bs c') : bs.length + c'.left ≤ acc.length + c.left := by
  induction fuel generalizing c acc with
  | zero =>
    obtain ⟨rfl, rfl⟩ := EStateM.Result.ok.inj h
    exact Nat.le_refl _
  | succ fuel ih =>
    have hliterals : (c.rest.takeWhile isLiteral).length + c.pastLiterals.left = c.left := by
      have hle := (List.takeWhile_prefix (l := c.rest) isLiteral).length_le
      rw [Cursor.left, Cursor.pastLiterals, rest_advanceBy, List.length_drop, Cursor.left]
      omega
    obtain ⟨hquote, rfl, rfl⟩ | ⟨hbackslash, ch, c₁, hescape, h⟩ := stringBytes_cases h
    · have hleft := Cursor.left_advance_of_head? hquote
      rw [List.length_append, List.length_reverse]
      omega
    · have hleft := Cursor.left_advance_of_head? hbackslash
      have hch := length_of_escapeSequence hescape
      have hrest := ih h
      rw [List.length_append, List.length_append, List.length_reverse, List.length_reverse]
        at hrest
      omega

theorem length_of_stringBody {s : String} (h : stringBody c = .ok s c') :
    (Text.utf8 s).length ≤ c.left := by
  unfold stringBody at h
  rw [steps_bind] at h
  obtain ⟨bs, c₁, hbytes, h⟩ := bind_eq_ok_iff.mp h
  have hlength := length_of_stringBytes hbytes
  rw [List.length_nil, Nat.zero_add] at hlength
  cases htext : Text.ofUtf8? bs.reverse with
  | none => simp [htext] at h
  | some t =>
    simp only [htext, pure_apply, EStateM.Result.ok.injEq] at h
    obtain ⟨rfl, -⟩ := h
    have hutf8 := Text.length_utf8_le htext
    rw [List.length_reverse] at hutf8
    omega

/-- Two readers that do the same wherever no more bytes are left than the number says. -/
def Agree {α : Type} (n : Nat) (r r' : Reader α) : Prop := ∀ c, c.left ≤ n → r c = r' c

section

variable {α β : Type} {n : Nat} {r r' : Reader α}

theorem agree_refl (r : Reader α) : Agree n r r := fun _ _ => rfl

theorem agree_bind {f f' : α → Reader β} (hr : Agree n r r') (hforward : Forward r)
    (hf : ∀ a, Agree n (f a) (f' a)) : Agree n (r >>= f) (r' >>= f') :=
  fun c hc => bind_congr_at (hr c hc) fun a c' hread =>
    hf a c' (Nat.le_trans (hforward _ _ _ hread) hc)

theorem agree_ite {p : Prop} [Decidable p] {s s' : Reader α} (hr : Agree n r r')
    (hs : Agree n s s') : Agree n (if p then r else s) (if p then r' else s') := by
  split_ifs
  · exact hr
  · exact hs

theorem agree_placed (h : Agree n r r') : Agree n (placed r) (placed r') := by
  intro c hc
  rw [placed, h c hc, placed]

theorem agree_return (h : Agree n r r') (f : α → β) :
    Agree n (do return f (← r)) (do return f (← r')) :=
  fun c hc => bind_congr_at (h c hc) fun _ _ _ => rfl

theorem agree_enclosed (h : Agree n r r') (close : Reader Unit) :
    Agree n (enclosed r close) (enclosed r' close) := by
  intro c hc
  rw [enclosed, h c hc, enclosed]

theorem forward_peekToken? : Forward peekToken? := by
  intro c _ c' h
  obtain ⟨-, rfl⟩ := EStateM.Result.ok.inj h
  exact c.left_token_le

theorem forward_steps : Forward steps := by
  intro c _ c' h
  obtain ⟨-, rfl⟩ := EStateM.Result.ok.inj h
  exact Nat.le_refl _

theorem forward_name : Forward name := by
  intro c k c' h
  have hbody := (stringBody_eq_ok h (Nat.lt_succ_self _)).1
  exact Nat.le_trans (Nat.le_of_lt hbody) c.left_advance_le

theorem agree_dispatch {leaf : Json → Except Cause α} {array array' object object' : Reader α}
    (harray : Agree n array array') (hobject : Agree n object object') :
    Agree n (dispatch leaf array object) (dispatch leaf array' object') := by
  refine agree_placed (agree_bind (agree_refl _) forward_peekToken? fun next => ?_)
  cases next with
  | none => exact agree_refl _
  | some b =>
    iterate 6 refine agree_ite (agree_refl _) ?_
    exact agree_ite harray (agree_ite hobject (agree_refl _))

theorem agree_list (h : Agree n r r') (hforward : Forward r) : Agree n (list r) (list r') := by
  have hgo (fuel : Nat) (first : Bool) (acc : List α) :
      Agree n (items.go r fuel first acc) (items.go r' fuel first acc) := by
    induction fuel generalizing first acc with
    | zero => exact agree_refl _
    | succ fuel ih =>
      refine agree_bind (agree_refl _) (fun _ _ _ => left_le_of_anotherItem) fun more => ?_
      cases more with
      | false => exact agree_refl _
      | true => exact agree_bind h hforward fun a => ih false (a :: acc)
  refine agree_bind (agree_refl _) forward_advance fun _ => agree_enclosed ?_ closeList
  exact agree_bind (agree_refl _) forward_steps fun fuel => hgo fuel true []

theorem agree_further {member member' : α → Reader α} (h : ∀ a, Agree n (member a) (member' a))
    (hforward : ∀ a, Forward (member a)) (a : α) :
    Agree n (furtherMembers member a) (furtherMembers member' a) := by
  have hgo (fuel : Nat) (first : Bool) (a : α) :
      Agree n (members.go member fuel first a) (members.go member' fuel first a) := by
    induction fuel generalizing first a with
    | zero => exact agree_refl _
    | succ fuel ih =>
      refine agree_bind (agree_refl _) (fun _ _ _ => left_le_of_anotherMember) fun more => ?_
      cases more with
      | false => exact agree_refl _
      | true => exact agree_bind (h a) (hforward a) fun b => ih false b
  exact agree_bind (agree_refl _) forward_steps fun fuel => hgo fuel false a

theorem agree_entry (h : Agree n r r') (m : OrderedMap String α) :
    Agree n (entry r m) (entry r' m) := by
  refine agree_bind (agree_refl _) forward_name fun k => ?_
  exact agree_bind (agree_refl _) forward_colon fun _ => agree_return h _

theorem forward_entry (h : Forward r) (m : OrderedMap String α) : Forward (entry r m) :=
  forward_bind forward_name fun _ => forward_bind forward_colon fun _ =>
    forward_bind h fun _ => forward_pure _

end

section

variable {whole whole' : List UInt8 → Except Fault Json} {n : Nat}
  (h : ∀ text, text.length < n → whole text = whole' text)

include h

theorem agree_embedded : Agree n (embedded whole) (embedded whole') := by
  refine agree_placed fun c hc => bind_congr_at rfl fun next c₁ hpeek => ?_
  obtain ⟨hhead, rfl⟩ : c.token.rest.head? = next ∧ c.token = c₁ := EStateM.Result.ok.inj hpeek
  cases next with
  | none => rfl
  | some b =>
    have hblank := c.left_token_le
    have hquote := Cursor.left_advance_of_head? hhead
    dsimp only
    split_ifs
    · -- the opening quote at the latest makes the text shorter than what is left
      refine bind_congr_at rfl fun _ c₂ hadvance => bind_congr_at rfl fun text c₃ hbody => ?_
      obtain ⟨-, rfl⟩ := EStateM.Result.ok.inj hadvance
      have hlength := length_of_stringBody hbody
      rw [h _ (by omega)]
    · rfl

theorem agree_objectOrEmbedded {r r' : Reader Json} (hr : Agree n r r') (hforward : Forward r) :
    Agree n (objectOrEmbedded whole r) (objectOrEmbedded whole' r') := by
  unfold objectOrEmbedded
  refine agree_bind (agree_refl _) forward_advance fun _ => agree_enclosed ?_ closeObject
  refine agree_bind (agree_refl _) (fun _ _ _ => left_le_of_anotherMember) fun more => ?_
  cases more with
  | false => exact agree_refl (pure (Json.object []))
  | true =>
    refine agree_bind (agree_refl _) forward_name fun k => ?_
    refine agree_bind (agree_refl _) forward_colon fun _ => ?_
    refine agree_ite (agree_embedded h) (agree_bind hr hforward fun v => ?_)
    exact agree_return (agree_further (agree_entry hr) (forward_entry hforward) _) _

theorem agree_value (depth : Nat) : Agree n (value whole depth) (value whole' depth) := by
  induction depth with
  | zero =>
    rw [value, value]
    exact agree_refl _
  | succ depth ih =>
    have hforward := forward_value whole depth
    rw [value, value]
    exact agree_dispatch (agree_return (agree_list ih hforward) _)
      (agree_objectOrEmbedded h ih hforward)

end

theorem all_congr {α : Type} {text : List UInt8} {r r' : Reader α} (h : Agree text.length r r') :
    all r text = all r' text := by
  have hstart : (r >>= fun a => do
      if (← peekToken?).isSome then failAhead .trailingCharacters
      return a : Reader α) (Cursor.start text) = (r' >>= fun a => do
      if (← peekToken?).isSome then failAhead .trailingCharacters
      return a : Reader α) (Cursor.start text) :=
    bind_congr_at (h (Cursor.start text) (Nat.le_refl _)) fun _ _ _ => rfl
  unfold all
  dsimp only
  rw [hstart]

end Reader

/-- More levels than there are bytes make no difference. -/
theorem ofBytesWithin_congr {levels levels' : Nat} {text : List UInt8}
    (h : text.length < levels) (h' : text.length < levels') :
    ofBytesWithin levels text = ofBytesWithin levels' text := by
  -- an embedded text is shorter, so that one level less is still enough for it
  induction levels generalizing levels' text with
  | zero => exact absurd h (Nat.not_lt_zero _)
  | succ levels ih =>
    obtain ⟨levels', rfl⟩ := Nat.exists_eq_succ_of_ne_zero (Nat.ne_zero_of_lt h')
    rw [ofBytesWithin, ofBytesWithin]
    exact Reader.all_congr (Reader.agree_value (fun embedded hlength =>
      ih (by omega) (by omega)) Reader.maxDepth)

/-- A text is read as a value, and so are the texts that are embedded in it. -/
theorem ofBytes_eq (text : List UInt8) :
    ofBytes text = Reader.all (Reader.value ofBytes Reader.maxDepth) text := by
  rw [ofBytes, ofBytesWithin]
  exact Reader.all_congr (Reader.agree_value (fun embedded hlength =>
    ofBytesWithin_congr hlength (Nat.lt_succ_self _)) Reader.maxDepth)

/-- The value of a text is what its document is reread as. -/
theorem ofBytes_eq_ok_iff {text : List UInt8} {v : Json} :
    ofBytes text = .ok v ↔ ∃ d, document text = .ok d ∧ reread ofBytes d = .ok v := by
  rw [ofBytes_eq]
  simp only [document, Reader.all_eq_ok_iff, Reader.value_eq_ok_iff]
  constructor
  · rintro ⟨c, ⟨d, hd, hv⟩, hend⟩
    exact ⟨d, ⟨c, hd, hend⟩, hv⟩
  · rintro ⟨d, ⟨c, hd, hend⟩, hv⟩
    exact ⟨c, ⟨d, hd, hv⟩, hend⟩

/-- What holds of everything that documents are reread as, once it holds of the values of embedded
texts, holds of the value of every text. -/
theorem ofBytes_induction {P : Json → Prop}
    (h : ∀ whole : List UInt8 → Except Fault Json, (∀ text v, whole text = .ok v → P v) →
      ∀ text d v, document text = .ok d → reread whole d = .ok v → P v)
    {text : List UInt8} {v : Json} (hv : ofBytes text = .ok v) : P v := by
  -- on the levels: a text within a text has one of them less
  have hlevels (levels : Nat) : ∀ text v, ofBytesWithin levels text = .ok v → P v := by
    induction levels with
    | zero => exact nofun
    | succ levels ih =>
      intro text v hv
      obtain ⟨c, hvalue, hend⟩ := Reader.all_eq_ok_iff.mp hv
      obtain ⟨d, hd, hreread⟩ := Reader.value_eq_ok_iff.mp hvalue
      exact h _ ih text d v (Reader.all_eq_ok_iff.mpr ⟨c, hd, hend⟩) hreread
  exact hlevels _ _ _ hv

theorem sorted_of_ofBytes {text : List UInt8} {v : Json} (h : ofBytes text = .ok v) :
    v.sorted = v :=
  ofBytes_induction (fun _ hwhole _ _ _ _ => sorted_of_reread hwhole) h

/-- Every value whose numbers are exact integers, whose members are in order and which embeds
nothing survives its compact text. -/
theorem ofBytes_compact {v : Json} (h : Exact v) (hdepth : nesting v ≤ Reader.maxDepth) :
    ofBytes (Text.utf8 (compact v)) = .ok v := by
  rw [ofBytes_eq_ok_iff]
  refine ⟨v, document_compact (.of_exact h) hdepth, ?_⟩
  rw [reread_of_plain (.of_exact h), sorted_of_exact h]

theorem reread_embedding {v : Json} (h : Exact v) (hdepth : nesting v ≤ Reader.maxDepth) :
    reread ofBytes (.object [(embeddingName, .string (compact v))]) = .ok v :=
  (reread_embedding_eq_ok_iff (embedding?_of_eq rfl _ _)).mpr
    ⟨rfl, _, rfl, ofBytes_compact h hdepth⟩

end ChainGateway.Json
