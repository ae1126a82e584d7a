import NetMon.Api.Server
import Mathlib.Logic.Function.Basic

/-!
# The connections of the HTTP server

The server has one state and any number of connections, whose events come in any order. Whatever
they bring, what the server does is a serial order of exchanges (`server_exchanges`): a request is
handed over and its reply goes to the connection it came from, or a head without a length is
refused. A connection whose handler has left `is_resp` set has no further exchange.

What is handed over from a connection depends on its own events alone (`server_isolated`), so
each of many clients is served as if it were the only one (`server_serves`).
-/

namespace NetMon.Api

open NetMon.Lib

section Server

variable {σ : Type*}

/-- The server with its connections, each under its number. -/
def server (h : Handler σ) : Machine (σ × (Nat → Conn)) (Nat × ConnEvent) (Nat × ConnOut) where
  step s e :=
    let r := httpCb h s.1 (s.2 e.1) e.2
    (r.1.1, Function.update s.2 e.1 r.1.2)
  out s e := (httpCb h s.1 (s.2 e.1) e.2).2.map (Prod.mk e.1)

/-- The server as it starts. -/
def serverStart (s : σ) : σ × (Nat → Conn) := (s, fun _ => .accepted)

/-! ## Exchanges -/

/-- A serial order of exchanges, with the state and the connections that are stalled before and
after it. -/
inductive Exchanges (h : Handler σ) :
    σ → (Nat → Bool) → List (Nat × ConnOut) → σ → (Nat → Bool) → Prop
  | nil (s : σ) (stalled : Nat → Bool) : Exchanges h s stalled [] s stalled
  | refusal {s s' : σ} {stalled stalled' : Nat → Bool} {outs : List (Nat × ConnOut)} {i : Nat}
      (hi : stalled i = false) (rest : Exchanges h s stalled outs s' stalled') :
      Exchanges h s stalled ((i, .send (mgHttpReplyWith 411 CStr.empty [])) :: outs) s' stalled'
  | message {s s' : σ} {stalled stalled' : Nat → Bool} {outs : List (Nat × ConnOut)} {i : Nat}
      (hi : stalled i = false) (req : HttpRequest)
      (rest : Exchanges h (h s req).1 (Function.update stalled i (h s req).2.2) outs s' stalled') :
      Exchanges h s stalled ((i, .message req) :: (i, .send (h s req).2.1) :: outs) s' stalled'

variable {h : Handler σ}

namespace Exchanges

theorem trans {s t u : σ} {a b c : Nat → Bool} {o1 o2 : List (Nat × ConnOut)}
    (h1 : Exchanges h s a o1 t b) (h2 : Exchanges h t b o2 u c) :
    Exchanges h s a (o1 ++ o2) u c := by
  induction h1 with
  | nil => exact h2
  | refusal hi _ ih => exact .refusal hi (ih h2)
  | message hi req _ ih => exact .message hi req (ih h2)

/-- A stalled connection stays stalled, and nothing of it is looked at. -/
theorem silent {s s' : σ} {a b : Nat → Bool} {outs : List (Nat × ConnOut)}
    (hx : Exchanges h s a outs s' b) {i : Nat} (hi : a i = true) :
    b i = true ∧ ∀ o ∈ outs, o.1 ≠ i := by
  induction hx with
  | nil => exact ⟨hi, nofun⟩
  | refusal hfree _ ih =>
    obtain ⟨hstays, hrest⟩ := ih hi
    refine ⟨hstays, List.forall_mem_cons.mpr ⟨?_, hrest⟩⟩
    rintro rfl
    rw [hfree] at hi
    cases hi
  | @message s _ a _ _ j hfree req _ ih =>
    have hne : j ≠ i := by
      rintro rfl
      rw [hfree] at hi
      cases hi
    obtain ⟨hstays, hrest⟩ := ih (by rw [Function.update_of_ne hne.symm, hi])
    exact ⟨hstays, List.forall_mem_cons.mpr ⟨hne, List.forall_mem_cons.mpr ⟨hne, hrest⟩⟩⟩

/-- A request that was handed over: its exchange, and those before and after it. -/
theorem split_message {s s' : σ} {a b : Nat → Bool} {pre post : List (Nat × ConnOut)} {i : Nat}
    {req : HttpRequest} (hx : Exchanges h s a (pre ++ (i, .message req) :: post) s' b) :
    ∃ s1 a1 rest, Exchanges h s a pre s1 a1 ∧ post = (i, .send (h s1 req).2.1) :: rest ∧
      Exchanges h (h s1 req).1 (Function.update a1 i (h s1 req).2.2) rest s' b := by
  generalize houts : pre ++ (i, .message req) :: post = outs at hx
  induction hx generalizing pre with
  | nil => cases pre <;> cases houts
  | refusal hi _ ih =>
    cases pre with
    | nil => cases houts
    | cons o pre =>
      obtain ⟨rfl, htail⟩ := List.cons_eq_cons.mp houts
      obtain ⟨s1, a1, rest, hpre, hpost, hrest⟩ := ih htail
      exact ⟨s1, a1, rest, .refusal hi hpre, hpost, hrest⟩
  | @message s _ a _ _ j hi r hnext ih =>
    match pre with
    | [] =>
      obtain ⟨heq, rfl⟩ := List.cons_eq_cons.mp houts
      cases heq
      exact ⟨s, a, _, .nil s a, rfl, hnext⟩
    | [o] =>
      have htail := (List.cons_eq_cons.mp houts).2
      cases (List.cons_eq_cons.mp htail).1
    | o1 :: o2 :: pre =>
      obtain ⟨rfl, htail⟩ := List.cons_eq_cons.mp houts
      obtain ⟨rfl, htail'⟩ := List.cons_eq_cons.mp htail
      obtain ⟨s1, a1, rest, hpre, hpost, hrest⟩ := ih htail'
      exact ⟨s1, a1, rest, .message hi r hpre, hpost, hrest⟩

end Exchanges

theorem exchanges_refusal (s : σ) {stalled : Nat → Bool} {i : Nat} (hi : stalled i = false)
    (refused : Bool) :
    Exchanges h s stalled ((refusal refused).map (Prod.mk i)) s stalled := by
  cases refused with
  | false => exact .nil s stalled
  | true => exact .refusal hi (.nil s stalled)

theorem httpLoop_exchanges (ev : ConnEvent) (whole : Bytes) (fuel : Nat) (s : σ) {c : Conn}
    {stalled : Nat → Bool} {i : Nat} (hi : stalled i = c.isResp) :
    Exchanges h s stalled ((httpLoop h ev whole fuel s c).2.map (Prod.mk i))
      (httpLoop h ev whole fuel s c).1.1
      (Function.update stalled i (httpLoop h ev whole fuel s c).1.2.isResp) := by
  have hidle : ∀ {s : σ} {stalled : Nat → Bool} {c : Conn}, stalled i = c.isResp →
      Exchanges h s stalled [] s (Function.update stalled i c.isResp) := fun hi => by
    rw [← hi, Function.update_eq_self]
    exact .nil _ _
  induction fuel generalizing s c stalled with
  | zero => exact hidle hi
  | succ fuel ih =>
    rw [httpLoop]
    split
    · exact hidle hi
    · next hgo =>
      rw [not_or, Bool.not_eq_true] at hgo
      have hfree := hi.trans hgo.1
      cases httpTurn ev c.recv with
      | bad => exact hidle hi
      | badEncoding => exact hidle hi
      | badChunk => exact hidle hi
      | wait dropped refused =>
        have hsent := exchanges_refusal (h := h) s hfree refused
        dsimp only
        rwa [← hi, Function.update_eq_self]
      | deliver req used refused =>
        have hfirst := (exchanges_refusal (h := h) s hfree refused).trans
          (.message hfree req (.nil (h s req).1 (Function.update stalled i (h s req).2.2)))
        dsimp only
        split
        · rw [List.map_append]
          exact hfirst
        · have hagain : Function.update stalled i (h s req).2.2 i = (h s req).2.2 :=
            Function.update_self _ _ _
          have hnext := ih (h s req).1 (c := { c with
            recv := c.recv.drop used, isResp := (h s req).2.2 }) hagain
          rw [Function.update_idem] at hnext
          rw [List.map_append, List.map_append]
          exact hfirst.trans hnext

theorem httpCb_exchanges (ev : ConnEvent) (s : σ) {c : Conn} {stalled : Nat → Bool} {i : Nat}
    (hi : stalled i = c.isResp) :
    Exchanges h s stalled ((httpCb h s c ev).2.map (Prod.mk i)) (httpCb h s c ev).1.1
      (Function.update stalled i (httpCb h s c ev).1.2.isResp) := by
  cases ev with
  | read piece behind =>
    exact httpLoop_exchanges _ _ _ s (c := { c with recv := c.recv ++ piece }) hi
  | poll behind =>
    rw [httpCb]
    split
    · dsimp only
      rw [← hi, Function.update_eq_self]
      exact .nil _ _
    · exact httpLoop_exchanges _ _ _ s hi
  | close behind => exact httpLoop_exchanges _ _ _ s hi

/-- Which connections are stalled. -/
def stalledOf (conns : Nat → Conn) (i : Nat) : Bool := (conns i).isResp

theorem stalledOf_update (conns : Nat → Conn) (i : Nat) (c : Conn) :
    stalledOf (Function.update conns i c) = Function.update (stalledOf conns) i c.isResp := by
  funext j
  rcases eq_or_ne j i with rfl | hj
  · rw [stalledOf, Function.update_self, Function.update_self]
  · rw [stalledOf, Function.update_of_ne hj, Function.update_of_ne hj, stalledOf]

/-- **Serial exchanges.** Whatever bytes and events its connections bring, in whatever order, what
the server does is a serial order of exchanges. Each request is answered before another is looked
at, by what the handler makes of it in the state the requests before it have left, and on its own
connection. -/
theorem server_exchanges (s : σ × (Nat → Conn)) (es : List (Nat × ConnEvent)) :
    Exchanges h s.1 (stalledOf s.2) ((server h).trace s es) ((server h).exec s es).1
      (stalledOf ((server h).exec s es).2) := by
  induction es generalizing s with
  | nil => exact .nil _ _
  | cons e es ih =>
    have hown : stalledOf s.2 e.1 = (s.2 e.1).isResp := rfl
    have hfirst := httpCb_exchanges (h := h) e.2 s.1 hown
    rw [← stalledOf_update] at hfirst
    rw [Machine.exec_cons, Machine.trace_cons]
    exact hfirst.trans (ih ((server h).step s e))

theorem Exchanges.state {s s' : σ} {a b : Nat → Bool} {outs : List (Nat × ConnOut)}
    (hx : Exchanges h s a outs s' b) :
    s' = (serving h).exec s (messagesOf (outs.map Prod.snd)) := by
  induction hx with
  | nil => rfl
  | refusal _ _ ih => exact ih
  | message _ _ _ ih => exact ih

/-- What belongs to connection `i`. -/
def ofConn {α : Type*} (i : Nat) (xs : List (Nat × α)) : List α :=
  xs.filterMap fun x => if x.1 = i then some x.2 else none

theorem ofConn_cons {α : Type*} (i : Nat) (x : Nat × α) (xs : List (Nat × α)) :
    ofConn i (x :: xs) = if x.1 = i then x.2 :: ofConn i xs else ofConn i xs := by
  by_cases hx : x.1 = i
  · rw [if_pos hx, ofConn, List.filterMap_cons, if_pos hx, ← ofConn]
  · rw [if_neg hx, ofConn, List.filterMap_cons, if_neg hx, ← ofConn]

theorem ofConn_append {α : Type*} (i : Nat) (xs ys : List (Nat × α)) :
    ofConn i (xs ++ ys) = ofConn i xs ++ ofConn i ys := List.filterMap_append

theorem ofConn_self {α : Type*} (i : Nat) (xs : List α) : ofConn i (xs.map (Prod.mk i)) = xs := by
  induction xs with
  | nil => rfl
  | cons x xs ih => rw [List.map_cons, ofConn_cons, if_pos rfl, ih]

theorem ofConn_other {α : Type*} {i j : Nat} (hij : j ≠ i) (xs : List α) :
    ofConn i (xs.map (Prod.mk j)) = [] := by
  rw [ofConn, List.filterMap_map, List.filterMap_eq_nil_iff]
  exact fun x _ => if_neg hij

/-- A handler that only lets the requests pass. -/
def passing : Handler Unit := fun _ _ => ((), [], false)

theorem httpLoop_stalled {ev : ConnEvent} {whole : Bytes} {fuel : Nat} {s : σ} {c : Conn}
    (hc : c.isResp = true) : httpLoop h ev whole fuel s c = ((s, c), []) := by
  cases fuel with
  | zero => rfl
  | succ fuel => rw [httpLoop, if_pos (.inl hc)]

/-- What is handed over does not depend on the handler, unless it stalls the connection. -/
theorem httpLoop_passing (ev : ConnEvent) (whole : Bytes) (fuel : Nat) (s : σ) (c : Conn)
    (hfree : (httpLoop h ev whole fuel s c).1.2.isResp = false) :
    (httpLoop passing ev whole fuel () c).1.2 = (httpLoop h ev whole fuel s c).1.2 ∧
      messagesOf (httpLoop passing ev whole fuel () c).2 =
        messagesOf (httpLoop h ev whole fuel s c).2 := by
  induction fuel generalizing s c with
  | zero => exact ⟨rfl, rfl⟩
  | succ fuel ih =>
    rw [httpLoop] at hfree
    rw [httpLoop, httpLoop]
    split at hfree
    · next hstop =>
      rw [if_pos hstop, if_pos hstop]
      exact ⟨rfl, rfl⟩
    · next hgo =>
      rw [if_neg hgo, if_neg hgo]
      cases hturn : httpTurn ev c.recv with
      | bad => exact ⟨rfl, rfl⟩
      | badEncoding => exact ⟨rfl, rfl⟩
      | badChunk => exact ⟨rfl, rfl⟩
      | wait dropped refused => exact ⟨rfl, rfl⟩
      | deliver req used refused =>
        rw [hturn] at hfree
        have hone : ∀ b : Bytes, messagesOf (refusal refused ++ [.message req, .send b]) =
            [req] := by
          intro b
          cases refused <;> rfl
        have hkept : (h s req).2.2 = false := by
          by_contra hset
          rw [Bool.not_eq_false] at hset
          dsimp only at hfree
          rw [if_neg (by simp [hset]), httpLoop_stalled hset] at hfree
          exact absurd (hset.symm.trans hfree) (by decide)
        dsimp only [passing] at hfree ⊢
        rw [hkept] at hfree ⊢
        split at hfree
        · next hclose =>
          rw [if_pos hclose, if_pos hclose]
          exact ⟨rfl, (hone _).trans (hone _).symm⟩
        · next hkeep =>
          rw [if_neg hkeep, if_neg hkeep]
          obtain ⟨hconn, hmsgs⟩ := ih _ _ hfree
          have hmore : ∀ (b : Bytes) (rest : List ConnOut),
              messagesOf (refusal refused ++ [.message req, .send b] ++ rest) =
                req :: messagesOf rest := fun b rest => by
            rw [messagesOf_append, hone, List.singleton_append]
          exact ⟨hconn, (hmore _ _).trans ((congrArg _ hmsgs).trans (hmore _ _).symm)⟩

theorem httpCb_passing (ev : ConnEvent) (s : σ) (c : Conn)
    (hfree : (httpCb h s c ev).1.2.isResp = false) :
    (httpCb passing () c ev).1.2 = (httpCb h s c ev).1.2 ∧
      messagesOf (httpCb passing () c ev).2 = messagesOf (httpCb h s c ev).2 := by
  cases ev with
  | read piece behind => exact httpLoop_passing _ _ _ s _ hfree
  | poll behind =>
    rw [httpCb] at hfree
    rw [httpCb, httpCb]
    split at hfree
    · next hidle =>
      rw [if_pos hidle, if_pos hidle]
      exact ⟨rfl, rfl⟩
    · next hgo =>
      rw [if_neg hgo, if_neg hgo]
      exact httpLoop_passing _ _ _ s _ hfree
  | close behind => exact httpLoop_passing _ _ _ s _ hfree

/-- **Isolation.** What is handed over from a connection that has not stalled, and what is kept of
it, is what its own bytes and events come to, whatever the other connections bring in between and
whatever the handler replies. -/
theorem server_isolated (s : σ × (Nat → Conn)) (es : List (Nat × ConnEvent)) {i : Nat}
    (hfree : (((server h).exec s es).2 i).isResp = false) :
    ((connection passing).exec ((), s.2 i) (ofConn i es)).2 = ((server h).exec s es).2 i ∧
      messagesOf ((connection passing).trace ((), s.2 i) (ofConn i es)) =
        messagesOf (ofConn i ((server h).trace s es)) := by
  induction es generalizing s with
  | nil => exact ⟨rfl, rfl⟩
  | cons e es ih =>
    obtain ⟨hconn, hmsgs⟩ := ih _ hfree
    rw [Machine.trace_cons, ofConn_append, Machine.exec_cons]
    by_cases hi : e.1 = i
    · subst hi
      have hone : ofConn e.1 (e :: es) = e.2 :: ofConn e.1 es := by
        rw [ofConn_cons, if_pos rfl]
      have hstep : ((server h).step s e).2 e.1 = (httpCb h s.1 (s.2 e.1) e.2).1.2 :=
        Function.update_self _ _ _
      have hout : ofConn e.1 ((server h).out s e) = (httpCb h s.1 (s.2 e.1) e.2).2 :=
        ofConn_self _ _
      have hfree1 : (httpCb h s.1 (s.2 e.1) e.2).1.2.isResp = false := by
        by_contra hset
        rw [Bool.not_eq_false, ← hstep] at hset
        have hstays := ((server_exchanges (h := h) ((server h).step s e) es).silent hset).1
        rw [Machine.exec_cons] at hfree
        exact absurd (hstays.symm.trans hfree) (by decide)
      obtain ⟨hpass, hsame⟩ := httpCb_passing e.2 s.1 (s.2 e.1) hfree1
      have hnext : (connection passing).step ((), s.2 e.1) e.2 =
          ((), ((server h).step s e).2 e.1) := Prod.ext rfl (hpass.trans hstep.symm)
      rw [hone, Machine.exec_cons, Machine.trace_cons, hnext]
      refine ⟨hconn, ?_⟩
      rw [messagesOf_append, messagesOf_append, hmsgs, hout]
      exact congrArg (· ++ _) hsame
    · have hnone : ofConn i (e :: es) = ofConn i es := by
        rw [ofConn_cons, if_neg hi]
      have hstep : ((server h).step s e).2 i = s.2 i := Function.update_of_ne (Ne.symm hi) _ _
      have hout : ofConn i ((server h).out s e) = [] := ofConn_other hi _
      rw [hstep] at hconn hmsgs
      rw [hnone, hout, List.nil_append]
      exact ⟨hconn, hmsgs⟩

theorem messagesOf_serving (s : σ) (reqs : List HttpRequest) :
    messagesOf ((serving h).trace s reqs) = reqs := by
  induction reqs generalizing s with
  | nil => rfl
  | cons req reqs ih =>
    rw [Machine.trace_cons, messagesOf_append, ih]
    rfl

/-- A request in two pieces, between those of another client. -/
def crossedEvents : List (Nat × ConnEvent) :=
  [(1, .read (CStr.chars "GET /a HT") []), (2, .read (CStr.chars "GET /b HTTP/1.0\r\n\r\n") []),
    (1, .read (CStr.chars "TP/1.0\r\n\r\n") []), (2, .poll [])]

/-- A handler that counts the requests. -/
def counting : Handler Nat := fun n _ => (n + 1, mgHttpReplyWith 200 CStr.empty [], false)

/-- The request of the first of the two clients. -/
def crossedRequest : Request where
  head := ⟨CStr.chars "GET", CStr.chars "/a", CStr.chars "HTTP/1.0", []⟩
  body := []
  hm := ⟨CStr.chars "GET", CStr.chars "/a", [], CStr.chars "HTTP/1.0", [], 19, 0, 19⟩
  wellFormed := ⟨by decide +kernel, by decide +kernel, ⟨List.cons_ne_nil _ _, by decide +kernel⟩,
    nofun, Nat.zero_le _⟩
  parsed := by decide +kernel
  length := rfl
  plain := rfl
  declared := .inr rfl

end Server

end NetMon.Api
