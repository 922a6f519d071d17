import ChainGateway.Http.Client
import ChainGateway.Proofs.ShapeReading
import ChainGateway.Proofs.Transcript
import ChainGateway.Proofs.Utf8
import Mathlib.Data.List.Chain

namespace ChainGateway

namespace Rpc.Response

theorem nodeError?_eq_some {r : Response} {e : NodeError} (he : r.error = some e)
    (hcode : e.code.toInt ≠ 0) : r.nodeError? = some e := by
  rw [nodeError?, he, Option.filter_some]
  simp [hcode]

theorem nodeError?_eq_none {r : Response} (h : ∀ e, r.error = some e → e.code.toInt = 0) :
    r.nodeError? = none := by
  unfold nodeError?
  cases he : r.error with
  | none => rfl
  | some e =>
    rw [Option.filter_some]
    simp [h e he]

theorem result?_eq_some {r : Response} {v : Json} (hv : r.result = some v) (hnull : v ≠ .null) :
    r.result? = some v := by
  have hnull' : v.isNull = false := Bool.eq_false_iff.mpr fun hn => hnull (Json.isNull_iff.mp hn)
  rw [result?, hv, Option.filter_some, hnull']
  rfl

theorem result?_eq_none {r : Response} (h : ∀ v, r.result = some v → v = .null) :
    r.result? = none := by
  unfold result?
  cases hv : r.result with
  | none => rfl
  | some v =>
    rw [h v hv]
    rfl

theorem outcome_of_nodeError {r : Response} {e : NodeError} (h : r.nodeError? = some e) :
    r.outcome = .error (.rpc e) := by
  rw [outcome, h]

theorem outcome_of_result {r : Response} {v : Json} (h : r.nodeError? = none)
    (hv : r.result? = some v) : r.outcome = .ok v := by
  rw [outcome, h, hv]

theorem outcome_of_noResult {r : Response} (h : r.nodeError? = none) (hv : r.result? = none) :
    r.outcome = .error .emptyReply := by
  rw [outcome, h, hv]

/-- A reply counts as a success exactly where there is a result to give out. -/
theorem isOk_iff (r : Response) : r.isOk = true ↔ ∃ v, r.outcome = .ok v := by
  unfold isOk outcome
  cases r.nodeError? with
  | some e => simp
  | none =>
    cases r.result? with
    | some v => simp
    | none => simp

end Rpc.Response

namespace Http

open Rpc (Response)

/-- With what a call ends whose reply has a status and a body. -/
inductive Classified (status : Nat) (body : List UInt8) : Except GatewayError Json → Prop where
  | nodeError {r : Response} {e : Rpc.NodeError} : OnWire.ofBytes body = .ok r →
      r.error = some e → e.code.toInt ≠ 0 → Classified status body (.error (.rpc e))
  | result {r : Response} {v : Json} : OnWire.ofBytes body = .ok r →
      (∀ e, r.error = some e → e.code.toInt = 0) → r.result = some v → v ≠ .null →
      Classified status body (.ok v)
  | noResult {r : Response} : OnWire.ofBytes body = .ok r →
      (∀ e, r.error = some e → e.code.toInt = 0) → (∀ v, r.result = some v → v = .null) →
      Classified status body (.error (.protocol "network request exception"))
  | malformed {fault : Json.Fault} : OnWire.ofBytes (α := Response) body = .error fault →
      200 ≤ status → status ≤ 299 →
      Classified status body (.error (.transport ("malformed response body: " ++ fault.message)))
  | failed {fault : Json.Fault} {excerpt rest : List Char} :
      OnWire.ofBytes (α := Response) body = .error fault → ¬ (200 ≤ status ∧ status ≤ 299) →
      Text.ofUtf8Lossy body = excerpt ++ rest →
      excerpt.length = min 256 (Text.ofUtf8Lossy body).length →
      Classified status body
        (.error (.transport ("HTTP " ++ toString status ++ ": " ++ String.ofList excerpt)))

def settled (status : Nat) (body : List UInt8) : Except GatewayError Json :=
  Rpc.result (replyOfBody status body)

theorem settled_of_decoded {status : Nat} {body : List UInt8} {r : Response}
    (h : OnWire.ofBytes body = .ok r) : settled status body = r.outcome := by
  rw [settled, replyOfBody, h]
  rfl

theorem settled_of_malformed {status : Nat} {body : List UInt8} {fault : Json.Fault}
    (h : OnWire.ofBytes (α := Response) body = .error fault) (hlow : 200 ≤ status)
    (hhigh : status ≤ 299) :
    settled status body =
      .error (.transport ("malformed response body: " ++ fault.message)) := by
  have hsuccess : isSuccess status = true := by
    simp [isSuccess, hlow, Nat.lt_succ_of_le hhigh]
  rw [settled, replyOfBody, h]
  simp only [hsuccess, ↓reduceIte]
  rfl

theorem settled_of_failed {status : Nat} {body : List UInt8} {fault : Json.Fault}
    (h : OnWire.ofBytes (α := Response) body = .error fault)
    (hstatus : ¬ (200 ≤ status ∧ status ≤ 299)) :
    settled status body =
      .error (.transport ("HTTP " ++ toString status ++ ": " ++ excerpt body)) := by
  have hsuccess : isSuccess status = false := by
    simp only [isSuccess, Bool.and_eq_false_iff, decide_eq_false_iff_not]
    omega
  rw [settled, replyOfBody, h]
  simp only [hsuccess, Bool.false_eq_true, ↓reduceIte]
  rfl

theorem classified_settled (status : Nat) (body : List UInt8) :
    Classified status body (settled status body) := by
  cases h : OnWire.ofBytes (α := Response) body with
  | ok r =>
    rw [settled_of_decoded h]
    -- an error of code zero counts for none, and so does a result that is null
    cases he : r.nodeError? with
    | some e =>
      obtain ⟨he', hcode⟩ := Option.filter_eq_some_iff.mp he
      rw [Response.outcome_of_nodeError he]
      exact .nodeError h he' (of_decide_eq_true hcode)
    | none =>
      have hzero : ∀ e, r.error = some e → e.code.toInt = 0 := fun e he' => by
        by_contra hcode
        rw [Response.nodeError?_eq_some he' hcode] at he
        cases he
      cases hv : r.result? with
      | some v =>
        obtain ⟨hv', hnull⟩ := Option.filter_eq_some_iff.mp hv
        rw [Response.outcome_of_result he hv]
        refine .result h hzero hv' fun hn => ?_
        rw [hn] at hnull
        cases hnull
      | none =>
        rw [Response.outcome_of_noResult he hv]
        refine .noResult h hzero fun v hv' => ?_
        by_contra hnull
        rw [Response.result?_eq_some hv' hnull] at hv
        cases hv
  | error fault =>
    by_cases hstatus : 200 ≤ status ∧ status ≤ 299
    · rw [settled_of_malformed h hstatus.1 hstatus.2]
      exact .malformed h hstatus.1 hstatus.2
    · rw [settled_of_failed h hstatus]
      exact .failed h hstatus (List.take_append_drop 256 _).symm List.length_take

theorem eq_settled_of_classified {status : Nat} {body : List UInt8}
    {outcome : Except GatewayError Json} (h : Classified status body outcome) :
    outcome = settled status body := by
  cases h with
  | nodeError hr he hcode =>
    rw [settled_of_decoded hr,
      Response.outcome_of_nodeError (Response.nodeError?_eq_some he hcode)]
  | result hr he hv hnull =>
    rw [settled_of_decoded hr, Response.outcome_of_result (Response.nodeError?_eq_none he)
      (Response.result?_eq_some hv hnull)]
  | noResult hr he hv =>
    rw [settled_of_decoded hr, Response.outcome_of_noResult (Response.nodeError?_eq_none he)
      (Response.result?_eq_none hv)]
    rfl
  | malformed hfault hlow hhigh => rw [settled_of_malformed hfault hlow hhigh]
  | failed hfault hstatus htext hlength =>
    rw [htext] at hlength
    rw [settled_of_failed hfault hstatus, excerpt, excerptLength, htext, List.take_eq_take_min,
      ← hlength, List.take_left]

/-- Only with a status of success is a body that holds no reply called malformed. -/
theorem malformed_iff {status : Nat} {body : List UInt8} {fault : Json.Fault}
    (h : OnWire.ofBytes (α := Response) body = .error fault) :
    (∃ m, settled status body = .error (.transport ("malformed response body: " ++ m))) ↔
      200 ≤ status ∧ status ≤ 299 := by
  constructor
  · rintro ⟨m, hm⟩
    by_contra hstatus
    rw [settled_of_failed h hstatus] at hm
    have htext := GatewayError.transport.inj (Except.error.inj hm)
    have hhead := congrArg (fun s => s.toList.head?) htext
    simp [String.toList_append] at hhead
  · rintro ⟨hlow, hhigh⟩
    exact ⟨_, settled_of_malformed h hlow hhigh⟩

structure Answered (status : Nat) (body : List UInt8) (outcome : Except GatewayError Json) :
    Prop where
  classified : Classified status body outcome
  sole : ∀ outcome', Classified status body outcome' → outcome' = outcome
  /-- Where there is an envelope, any other status leads to the same. -/
  statusless : ∀ r : Response, OnWire.ofBytes body = .ok r →
    ∀ status', Classified status' body outcome
  isOk_iff : ∀ r : Response, OnWire.ofBytes body = .ok r →
    (r.isOk = true ↔ ∃ v, outcome = .ok v)
  malformed_iff : ∀ fault, OnWire.ofBytes (α := Response) body = .error fault →
    ((∃ m, outcome = .error (.transport ("malformed response body: " ++ m))) ↔
      200 ≤ status ∧ status ≤ 299)

theorem answered_settled (status : Nat) (body : List UInt8) :
    Answered status body (settled status body) where
  classified := classified_settled status body
  sole _ h := eq_settled_of_classified h
  statusless r h status' := by
    have hsame : settled status body = settled status' body :=
      (settled_of_decoded h).trans (settled_of_decoded h).symm
    rw [hsame]
    exact classified_settled status' body
  isOk_iff r h := by rw [settled_of_decoded h, r.isOk_iff]
  malformed_iff _ h := malformed_iff h

namespace Client

def post (c : Client) (url : Url) (method : String) (params : List Json) : Post where
  verb := .post
  url := url
  body := Text.utf8 (Json.compact (.object [("method", .string method), ("params", .array params),
    ("id", .integer 1), ("jsonrpc", .string "2.0")]))
  timeout := c.timeout

theorem text_numbered (method : String) (params : List Json) :
    OnWire.text (Rpc.Request.numbered Rpc.fixedId method params) =
      Json.compact (.object [("method", .string method), ("params", .array params),
        ("id", .integer 1), ("jsonrpc", .string "2.0")]) := by
  change Json.compact (.object [_, ("params", (Wire.Shape.list .value).toJson params), _, _]) = _
  rw [Wire.toJson_list_value]
  rfl

def invokeAll (c : Client) (calls : List (String × List Json)) :
    Network (List (Except GatewayError Json)) :=
  Dialogue.inTurn (calls.map fun call => c.exchange (Rpc.invoke call.1 call.2))

abbrev Log := List ((_ : Post) × Delivery)

/-- A post, what it is sent on to so many times at most, and the reply that comes of it. -/
inductive Followed (origin : Url) : Nat → Post → Log → Rpc.Reply → Prop where
  | arrived {hops : Nat} {p : Post} {d : Delivery} : d.next? p = none →
      Followed origin hops p [⟨p, d⟩] (d.reply origin)
  | exhausted {p next : Post} {d : Delivery} : d.next? p = some next →
      Followed origin 0 p [⟨p, d⟩]
        (.error (.transport ("error following redirect for url (" ++ p.url.text ++ ")")))
  | unpostable {hops : Nat} {p next : Post} {d : Delivery} : d.next? p = some next →
      next.url.isPostable = false → Followed origin (hops + 1) p [⟨p, d⟩]
        (.error (.transport ("builder error for url (" ++ next.url.text ++ ")")))
  | onward {hops : Nat} {p next : Post} {d : Delivery} {log : Log} {reply : Rpc.Reply} :
      d.next? p = some next → Followed origin hops next log reply →
      Followed origin (hops + 1) p (⟨p, d⟩ :: log) reply

theorem followed_of_ends {origin : Url} {hops : Nat} {p : Post} {log : Log} {reply : Rpc.Reply}
    (h : Dialogue.Ends (follow origin hops p) log reply) : Followed origin hops p log reply := by
  -- on the redirects that may still be followed
  induction hops generalizing p log with
  | zero =>
    rw [follow] at h
    cases h with
    | @ask _ _ d _ _ h =>
      cases hnext : d.next? p with
      | none =>
        simp only [hnext] at h
        obtain ⟨rfl, rfl⟩ := Dialogue.ends_done h
        exact .arrived hnext
      | some next =>
        simp only [hnext] at h
        obtain ⟨rfl, rfl⟩ := Dialogue.ends_done h
        exact .exhausted hnext
  | succ hops ih =>
    rw [follow] at h
    cases h with
    | @ask _ _ d _ _ h =>
      cases hnext : d.next? p with
      | none =>
        simp only [hnext] at h
        obtain ⟨rfl, rfl⟩ := Dialogue.ends_done h
        exact .arrived hnext
      | some next =>
        simp only [hnext] at h
        split_ifs at h with hpost
        · exact .onward hnext (ih h)
        · obtain ⟨rfl, rfl⟩ := Dialogue.ends_done h
          exact .unpostable hnext (Bool.eq_false_iff.mpr hpost)

theorem ends_send {c : Client} {url : Url} (hurl : Url.ofText? c.url = some url)
    (hpost : url.isPostable = true) {q : Rpc.Request} {log : Log} {reply : Rpc.Reply}
    (h : Dialogue.Ends (c.send q) log reply) :
    Followed url maxHops ⟨.post, url, Text.utf8 (OnWire.text q), c.timeout⟩ log reply := by
  unfold send at h
  rw [hurl] at h
  simp only [hpost, ↓reduceIte] at h
  exact followed_of_ends h

def Resent (p q : Post) : Prop :=
  q.timeout = p.timeout ∧ (q.verb = .post ∧ q.body = p.body ∨ q.verb = .get ∧ q.body = [])

theorem Resent.next {p q next : Post} {d : Delivery} (h : Resent p q)
    (hnext : d.next? q = some next) : Resent p next := by
  obtain ⟨htimeout, hsent⟩ := h
  cases d with
  | moved status location body =>
    obtain ⟨url, -, hnext⟩ := Option.bind_eq_some_iff.mp hnext
    split at hnext
    · obtain rfl := Option.some.inj hnext
      exact ⟨htimeout, .inr ⟨rfl, rfl⟩⟩
    · obtain rfl := Option.some.inj hnext
      exact ⟨htimeout, .inr ⟨rfl, rfl⟩⟩
    · obtain rfl := Option.some.inj hnext
      exact ⟨htimeout, .inr ⟨rfl, rfl⟩⟩
    · obtain rfl := Option.some.inj hnext
      exact ⟨htimeout, hsent⟩
    · obtain rfl := Option.some.inj hnext
      exact ⟨htimeout, hsent⟩
    · cases hnext
  | _ => cases hnext

def whole? : Delivery → Option (Nat × List UInt8)
  | .received status body | .moved status _ (some body) => some (status, body)
  | _ => none

/-- How a call ends with what came of its last post, which is the one of a number. -/
inductive Ending (origin : Url) (count : Nat) (p : Post) (d : Delivery) :
    Except GatewayError Json → Prop where
  | answered {status : Nat} {body : List UInt8} {outcome : Except GatewayError Json} :
      d.next? p = none → whole? d = some (status, body) → Answered status body outcome →
      Ending origin count p d outcome
  | lost {message : String} : d.next? p = none → whole? d = none →
      message = "error sending request for url (" ++ origin.text ++ ")" ∨
        message = "error decoding response body" →
      Ending origin count p d (.error (.transport message))
  | exhausted {next : Post} : d.next? p = some next → count = 11 →
      Ending origin count p d
        (.error (.transport ("error following redirect for url (" ++ p.url.text ++ ")")))
  | unpostable {next : Post} : d.next? p = some next → count ≤ 10 → next.url.isPostable = false →
      Ending origin count p d
        (.error (.transport ("builder error for url (" ++ next.url.text ++ ")")))

/-- What holds of a call by a post: each further post is what the reply to the one before it asks
for, and the last one decides how the call ends. -/
structure Called (origin : Url) (p : Post) (log : Log) (outcome : Except GatewayError Json) :
    Prop where
  first : ∃ d, log.head? = some ⟨p, d⟩
  asked : log.IsChain fun x y => x.2.next? x.1 = some y.1
  resent : ∀ x ∈ log, Resent p x.1
  length_le : log.length ≤ 11
  ended : ∃ x, log.getLast? = some x ∧ Ending origin log.length x.1 x.2 outcome

section

variable {origin : Url} {hops : Nat} {p : Post} {log : Log} {reply : Rpc.Reply}
  (h : Followed origin hops p log reply)

include h

theorem exists_head?_of_followed : ∃ d, log.head? = some ⟨p, d⟩ := by
  cases h <;> exact ⟨_, rfl⟩

theorem isChain_of_followed : log.IsChain fun x y => x.2.next? x.1 = some y.1 := by
  induction h with
  | arrived | exhausted | unpostable => exact .singleton _
  | onward hnext hrest ih =>
    obtain ⟨d, hhead⟩ := exists_head?_of_followed hrest
    refine ih.cons fun y hy => ?_
    obtain rfl := Option.some.inj (hhead.symm.trans hy)
    exact hnext

theorem resent_of_followed {first : Post} (hp : Resent first p) : ∀ x ∈ log, Resent first x.1 := by
  induction h with
  | arrived | exhausted | unpostable => exact List.forall_mem_singleton.mpr hp
  | onward hnext _ ih => exact List.forall_mem_cons.mpr ⟨hp, ih (hp.next hnext)⟩

theorem length_le_of_followed : log.length ≤ hops + 1 := by
  induction h with
  | arrived | exhausted | unpostable => exact Nat.le_add_left _ _
  | onward _ _ ih => exact Nat.succ_le_succ ih

end

theorem ending_of_arrived {origin : Url} {p : Post} {d : Delivery} (h : d.next? p = none)
    (count : Nat) : Ending origin count p d (Rpc.result (d.reply origin)) := by
  cases d with
  | unanswered => exact .lost h rfl (.inl rfl)
  | cutShort => exact .lost h rfl (.inr rfl)
  | received status body => exact .answered h rfl (answered_settled status body)
  | moved status location body =>
    cases body with
    | none => exact .lost h rfl (.inr rfl)
    | some body => exact .answered h rfl (answered_settled status body)

theorem exists_ending_of_followed {origin : Url} {hops : Nat} {p : Post} {log : Log}
    {reply : Rpc.Reply} (h : Followed origin hops p log reply) {before : Nat}
    (hbefore : before + hops = maxHops) : ∃ x, log.getLast? = some x ∧
      Ending origin (before + log.length) x.1 x.2 (Rpc.result reply) := by
  -- on what is followed, with the posts before it counted in
  induction h generalizing before with
  | arrived hnext => exact ⟨_, rfl, ending_of_arrived hnext _⟩
  | exhausted hnext => exact ⟨_, rfl, .exhausted hnext (congrArg (· + 1) hbefore)⟩
  | unpostable hnext hpost =>
    refine ⟨_, rfl, .unpostable hnext ?_ hpost⟩
    exact Nat.le_trans (Nat.add_le_add_left (Nat.le_add_left _ _) _) (Nat.le_of_eq hbefore)
  | @onward hops p next d log reply _ hrest ih =>
    have hcounted : before + 1 + hops = maxHops := by omega
    obtain ⟨x, hlast, hending⟩ := ih hcounted
    refine ⟨x, ?_, ?_⟩
    · rw [List.getLast?_cons, hlast]
      rfl
    · rw [List.length_cons, Nat.add_comm log.length, ← Nat.add_assoc]
      exact hending

theorem called_of_ends {c : Client} {url : Url} (hurl : Url.ofText? c.url = some url)
    (hpost : url.isPostable = true) {method : String} {params : List Json} {log : Log}
    {outcome : Except GatewayError Json}
    (h : Dialogue.Ends (c.exchange (Rpc.invoke method params)) log outcome) :
    Called url (c.post url method params) log outcome := by
  obtain ⟨inner, pieces, hinner, rfl, hpieces⟩ := Dialogue.ends_via h
  obtain ⟨reply, rfl, rfl⟩ := Rpc.Exchange.asks_request _ method params _ _ hinner
  cases hpieces with
  | @cons _ piece _ _ hpiece hrest =>
    cases hrest
    have hfollowed := ends_send hurl hpost hpiece
    rw [text_numbered] at hfollowed
    rw [List.flatten_singleton]
    obtain ⟨x, hlast, hending⟩ := exists_ending_of_followed hfollowed (Nat.zero_add maxHops)
    exact {
      first := exists_head?_of_followed hfollowed
      asked := isChain_of_followed hfollowed
      resent := resent_of_followed hfollowed ⟨rfl, .inl ⟨rfl, rfl⟩⟩
      length_le := length_le_of_followed hfollowed
      ended := ⟨x, hlast, by rwa [Nat.zero_add] at hending⟩ }

/-- Calls in turn are as many first posts in their order, and nothing is sent besides but what
replies ask for. A reply that is received whole and asks for nothing decides by its envelope, and by
its status only where it has none. -/
theorem invokeAll_classified {σ : Type} (answer : Post → σ → Delivery × σ) (c : Client)
    (calls : List (String × List Json)) (s : σ) {url : Url} (hurl : Url.ofText? c.url = some url)
    (hpost : url.isPostable = true) :
    ∃ turns : List (Dialogue.Turn Post (fun _ => Delivery) (Except GatewayError Json)),
      (c.invokeAll calls).transcript answer s = turns.flatMap Dialogue.Turn.log ∧
      ((c.invokeAll calls).run answer s).1 = turns.map Dialogue.Turn.outcome ∧
      List.Forall₂ (fun call turn => Called url (c.post url call.1 call.2) turn.log turn.outcome)
        calls turns := by
  obtain ⟨turns, hlog, houtcomes, hturns⟩ :=
    Dialogue.ends_inTurn (Dialogue.ends_run answer (c.invokeAll calls) s)
  refine ⟨turns, hlog, houtcomes, (List.forall₂_map_left_iff.mp hturns).imp ?_⟩
  exact fun call turn hends => called_of_ends hurl hpost hends

def localClient : Client := .ofUrl "http://127.0.0.1:18131"

def localUrl : Url := ⟨"http", some "127.0.0.1", some 18131, "/", none, none⟩

def brokenBody : List UInt8 := [0xFF, 0x61]

theorem invokeAll_classified_broken :
    ((localClient.invokeAll [("qng_getBalance", [.string "a", .integer 0])]).run
      (fun _ s => (.received 503 brokenBody, s)) ()).1 =
        [.error (.transport "HTTP 503: \uFFFDa")] := by
  have hurl : Url.ofText? localClient.url = some localUrl := by decide +kernel
  obtain ⟨turns, hlog, houtcomes, hturns⟩ := invokeAll_classified
    (fun _ s => (.received 503 brokenBody, s)) localClient
    [("qng_getBalance", [.string "a", .integer 0])] () hurl rfl
  obtain ⟨⟨log, outcome⟩, rfl⟩ : ∃ turn, turns = [turn] :=
    List.length_eq_one_iff.mp hturns.length_eq.symm
  obtain ⟨x, hlast, hending⟩ := (List.forall₂_cons.mp hturns).1.ended
  have hdelivery : x.2 = .received 503 brokenBody := by
    have hmem : x ∈ (localClient.invokeAll _).transcript _ () :=
      hlog ▸ List.mem_flatMap.mpr ⟨_, List.mem_singleton_self _, List.mem_of_getLast? hlast⟩
    obtain ⟨_, h⟩ := Dialogue.exists_answer_of_mem_transcript hmem
    exact h
  have hfault : OnWire.ofBytes (α := Response) brokenBody =
      .error ⟨.malformed .noValue, some ⟨1, 1⟩⟩ := rfl
  have htext : Text.ofUtf8Lossy brokenBody = ['\uFFFD', 'a'] ++ [] := rfl
  rw [houtcomes, List.map_singleton]
  rw [hdelivery] at hending
  cases hending with
  | answered _ hwhole hanswered =>
    obtain ⟨rfl, rfl⟩ := Prod.mk.inj (Option.some.inj hwhole)
    rw [← hanswered.sole _ (.failed hfault (by decide) htext rfl)]
    rfl
  | lost _ hwhole _ => cases hwhole
  | exhausted hnext _ => cases hnext
  | unpostable hnext _ _ => cases hnext

def movedNode (p : Post) (s : Unit) : Delivery × Unit :=
  (if p.url.path = "/" then .moved 307 "new" (some [])
    else .received 200 (Text.utf8 (OnWire.text (Response.success .null (.bool true)))), s)

/-- A reply that sends on is not the end of a call: the same is posted again, to another place, and
the call succeeds with the reply there. -/
theorem moved_posted_again :
    ((localClient.invokeAll [("m", [])]).transcript movedNode ()).map
      (fun x => (x.1.verb, x.1.url.path)) = [(.post, "/"), (.post, "/new")] ∧
    ((localClient.invokeAll [("m", [])]).run movedNode ()).1.map Except.isOk = [true] := by
  decide +kernel

end Client

end Http

end ChainGateway
