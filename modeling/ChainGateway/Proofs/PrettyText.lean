import ChainGateway.Proofs.EmbeddedLevels

namespace ChainGateway

namespace Json

open Reader

def indent (level : Nat) : List UInt8 := bytes (newline level)

def laid (level : Nat) (v : Json) : List UInt8 := bytes (prettyChars level v)

theorem blanks_indent (level : Nat) : Blanks (indent level) := by
  have hblanks (n : Nat) : Blanks (bytes (List.replicate n ' ')) := by
    induction n with
    | zero => exact blanks_nil
    | succ n ih => exact List.forall_mem_cons.mpr ⟨rfl, ih⟩
  exact List.forall_mem_cons.mpr ⟨rfl, hblanks _⟩

theorem bytes_prettyItems (level : Nat) (v : Json) (items : List Json) :
    bytes (prettyItems level (v :: items)) =
      laid level v ++ further (indent level) (items.map (laid level)) := by
  induction items generalizing v with
  | nil => rw [prettyItems]; exact (List.append_nil _).symm
  | cons w items ih =>
    have hcomma : bytes (',' :: newline level) = 44 :: indent level := rfl
    rw [prettyItems, bytes_append, bytes_append, hcomma, ih, List.map_cons, further_cons,
      List.append_assoc]
    rfl

def afterColon (level : Nat) (v : Json) : List UInt8 := [32] ++ laid level v

theorem bytes_prettyMember (level : Nat) (m : String × Json) :
    bytes (quoted m.1 ++ ':' :: ' ' :: prettyChars level m.2) =
      memberText (afterColon level) m := by
  rw [bytes_append]
  rfl

theorem bytes_prettyMembers (level : Nat) (m : String × Json) (members : List (String × Json)) :
    bytes (prettyMembers level (m :: members)) =
      memberText (afterColon level) m ++
        further (indent level) (members.map (memberText (afterColon level))) := by
  induction members generalizing m with
  | nil =>
    rw [prettyMembers, bytes_prettyMember]
    exact (List.append_nil _).symm
  | cons m' members ih =>
    have hcomma : bytes (',' :: newline level) = 44 :: indent level := rfl
    rw [prettyMembers, bytes_append, bytes_append, bytes_prettyMember, hcomma, ih, List.map_cons,
      further_cons, List.append_assoc]
    rfl

theorem laid_array (level : Nat) (v : Json) (items : List Json) :
    laid level (.array (v :: items)) =
      91 :: laidOut (indent (level + 1)) (indent level) ((v :: items).map (laid (level + 1)))
        ++ [93] := by
  have hchars : prettyChars level (.array (v :: items)) = ['['] ++ newline (level + 1) ++
      prettyItems (level + 1) (v :: items) ++ newline level ++ [']'] := by
    rw [prettyChars]
    rfl
  rw [laid, hchars, bytes_append, bytes_append, bytes_append, bytes_append, bytes_prettyItems]
  simp only [List.map_cons, laidOut, List.append_assoc, List.cons_append]
  rfl

theorem laid_object (level : Nat) (m : String × Json) (members : List (String × Json)) :
    laid level (.object (m :: members)) =
      123 :: laidOut (indent (level + 1)) (indent level)
        ((m :: members).map (memberText (afterColon (level + 1)))) ++ [125] := by
  have hchars : prettyChars level (.object (m :: members)) = ['{'] ++ newline (level + 1) ++
      prettyMembers (level + 1) (m :: members) ++ newline level ++ ['}'] := by
    rw [prettyChars]
    rfl
  rw [laid, hchars, bytes_append, bytes_append, bytes_append, bytes_append, bytes_prettyMembers]
  simp only [List.map_cons, laidOut, List.append_assoc, List.cons_append]
  rfl

/-- Text over several lines differs from compact text in nothing but blanks. -/
theorem layout_laid : Layout laid where
  scalar level v hv := by
    cases v with
    | array items => cases hv
    | object members => cases hv
    | bool b => cases b <;> rfl
    | _ => rfl
  array level items := by
    cases items with
    | nil => exact ⟨[], [], blanks_nil, blanks_nil, rfl⟩
    | cons v items => exact ⟨_, _, blanks_indent _, blanks_indent _, laid_array level v items⟩
  object level members := by
    have hgap : Blanks [32] := List.forall_mem_cons.mpr ⟨rfl, blanks_nil⟩
    cases members with
    | nil => exact ⟨[], [], [], blanks_nil, blanks_nil, blanks_nil, rfl⟩
    | cons m members =>
      exact ⟨_, _, [32], blanks_indent _, blanks_indent _, hgap, laid_object level m members⟩

/-- Every value whose numbers are exact integers is the document of its text over several lines,
with a new line behind it, where there is room for its brackets. -/
theorem all_verbatim_pretty {v : Json} (h : Integral v) {depth : Nat} (hdepth : nesting v ≤ depth) :
    all (verbatim depth) (Text.utf8 (pretty v ++ "\n")) = .ok v := by
  have hline : Blanks [10] := List.forall_mem_cons.mpr ⟨rfl, blanks_nil⟩
  have hdelimited : Delimited [10] := delimited_cons (Or.inr (Or.inr (Or.inr rfl))) []
  have htext : Text.utf8 (pretty v ++ "\n") = laid 0 v ++ [10] := by
    rw [Text.utf8, String.toList_append, List.flatMap_append, pretty, String.toList_ofList]
    rfl
  rw [htext]
  exact all_eq_ok_of_blanks (layout_laid.gives_verbatim h hdepth 0 hdelimited) hline

/-- If members are in order besides and nothing is embedded, the value survives that text. -/
theorem ofBytes_pretty {v : Json} (h : Exact v) (hdepth : nesting v ≤ maxDepth) :
    ofBytes (Text.utf8 (pretty v ++ "\n")) = .ok v := by
  rw [ofBytes_eq_ok_iff]
  refine ⟨v, all_verbatim_pretty (.of_exact h) hdepth, ?_⟩
  rw [reread_of_plain (.of_exact h), sorted_of_exact h]

end Json

end ChainGateway
