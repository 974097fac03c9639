import Mathlib.Data.List.DropRight
import RestForge.Rest.MockTransport

/-!
# What a transport for tests records and answers

A test gives answers to its transport, sends requests through endpoints and forgets what was sent,
in any order. What the transport holds and answers can be told from these steps alone.

* `Call`: an operation of an endpoint; `MockStep`: a step of a test.
* `after`, `answers`: what steps do to a transport, and what they are answered.
* `recorded`, `given?`, `due?`: the requests, the answer for a path and the answer to a step, as the
  steps tell them.
* `Reflects`: a transport that holds just what the steps tell; `Reflects.run`, `reflects_after`: one
  step and all steps keep it so.
* `dispatch_trace`: the records and the answers of any sequence of steps.
-/

set_option autoImplicit false

namespace RestForge.Rest

/-! ## Steps of a test -/

/-- An operation of an endpoint. -/
inductive Call where
  | get (key : Option String) (query : Query)
  | post (body : Record)
  | put (key : Option String) (body : Record)
  | delete (key : Option String)

namespace Call

def perform (e : Endpoint) : Call → Operation MockTransport Response
  | get key query => e.get key query
  | post body => e.post body
  | put key body => e.put key body
  | delete key => e.delete key

def method : Call → Method
  | get _ _ => .get
  | post _ => .post
  | put _ _ => .put
  | delete _ => .delete

/-- An object is made at the endpoint itself. -/
def path (e : Endpoint) : Call → String
  | post _ => e.path
  | get key _ | put key _ | delete key => e.keyPath key

def query : Call → Query
  | get _ query => query
  | post _ | put _ _ | delete _ => []

def body? : Call → Option Record
  | post body | put _ body => some body
  | get _ _ | delete _ => none

/-- The record of the call. -/
def request (e : Endpoint) (c : Call) : Request :=
  ⟨c.method, e.category, c.path e, c.query, c.body?⟩

end Call

/-- A call is made at the endpoint that is reached from a base along segments. -/
inductive MockStep where
  | respond (method : Method) (path : String) (response : Response)
  | clear
  | call (base : Endpoint) (segments : List String) (c : Call)

/-- The endpoint at the end of a chain of children. -/
def Endpoint.reach (e : Endpoint) (segments : List String) : Endpoint :=
  segments.foldl Endpoint.child e

/-- What a step is answered; only calls are. -/
abbrev MockAnswer := Option (Except ClientError Response)

namespace MockStep

def run (s : MockStep) (t : MockTransport) : MockAnswer × MockTransport :=
  match s with
  | respond method path response => (none, t.respond method path response)
  | clear => (none, t.clear)
  | call base segments c =>
    let (answer, t) := c.perform (base.reach segments) t
    (some answer, t)

/-! ## What steps tell -/

def isClear : MockStep → Bool
  | clear => true
  | respond _ _ _ | call _ _ _ => false

/-- The path of the endpoint is its base and the segments, with slashes between them. -/
def request? : MockStep → Option Request
  | call base segments c =>
    some (c.request ⟨base.category, String.intercalate "/" (base.path :: segments)⟩)
  | respond _ _ _ | clear => none

def gives? (method : Method) (path : String) : MockStep → Option Response
  | respond m p response => if m = method ∧ p = path then some response else none
  | clear | call _ _ _ => none

end MockStep

/-- The requests since the requests were last forgotten. -/
def recorded (steps : List MockStep) : List Request :=
  (steps.rtakeWhile fun s => !s.isClear).filterMap MockStep.request?

/-- The latest answer for the method and the path. -/
def given? (steps : List MockStep) (method : Method) (path : String) : Option Response :=
  (steps.filterMap (MockStep.gives? method path)).getLast?

/-- What is answered where no answer was given. -/
def unasked : Method → Response
  | .get => ⟨.success, 200, .array [], none⟩
  | .post | .put | .delete => ⟨.success, 200, .null, none⟩

/-- Any status besides success makes an error of the answer. -/
def settled (r : Response) : Except ClientError Response :=
  match r.status with
  | .success => .ok r
  | .error =>
    .error (.api r.httpStatus (r.message.getD s!"request failed with HTTP {r.httpStatus}"))

/-- What a step is answered behind others. -/
def MockStep.due? (before : List MockStep) (s : MockStep) : MockAnswer :=
  s.request?.map fun r => settled ((given? before r.method r.path).getD (unasked r.method))

/-! ## Runs -/

namespace MockTransport

def after (t : MockTransport) (steps : List MockStep) : MockTransport :=
  steps.foldl (fun t s => (s.run t).2) t

def answers (t : MockTransport) : List MockStep → List MockAnswer
  | [] => []
  | s :: steps => (s.run t).1 :: answers (s.run t).2 steps

variable (t : MockTransport)

theorem after_concat (steps : List MockStep) (s : MockStep) :
    t.after (steps ++ [s]) = (s.run (t.after steps)).2 := by
  rw [after, List.foldl_concat]
  rfl

theorem answers_append (steps later : List MockStep) :
    t.answers (steps ++ later) = t.answers steps ++ (t.after steps).answers later := by
  induction steps generalizing t with
  | nil => rfl
  | cons s steps ih => exact congrArg _ (ih _)

theorem length_answers (steps : List MockStep) : (t.answers steps).length = steps.length := by
  induction steps generalizing t with
  | nil => rfl
  | cons s steps ih => exact congrArg _ (ih _)

end MockTransport

/-! ## One step -/

theorem Endpoint.reach_eq (e : Endpoint) (segments : List String) :
    e.reach segments = ⟨e.category, String.intercalate "/" (e.path :: segments)⟩ := by
  induction segments generalizing e with
  | nil => simp [reach]
  | cons segment segments ih =>
    have hchild : e.reach (segment :: segments) = (e.child segment).reach segments := rfl
    rw [hchild, ih]
    cases segments <;> simp [child, String.append_assoc]

theorem Response.checked_eq (r : Response) : r.checked = settled r := by
  obtain ⟨_ | _, httpStatus, results, message⟩ := r <;> rfl

theorem standardAnswer_eq (m : Method) : MockTransport.standardAnswer m = unasked m := by
  cases m <;> rfl

/-- A call is recorded whatever it is answered. -/
theorem Call.perform_eq (e : Endpoint) (c : Call) (t : MockTransport) :
    c.perform e t = (settled (t.answer (c.request e)), t.record (c.request e)) := by
  have hdispatch : ∀ r : Request, (dispatch r : Operation MockTransport Response) t
      = (settled (t.answer r), t.record r) := by
    intro r
    rw [← Response.checked_eq]
    rfl
  cases c <;> exact hdispatch _

theorem MockStep.run_call (base : Endpoint) (segments : List String) (c : Call)
    (t : MockTransport) : ∃ r, (call base segments c).request? = some r
      ∧ (call base segments c).run t = (some (settled (t.answer r)), t.record r) := by
  refine ⟨_, rfl, ?_⟩
  rw [← Endpoint.reach_eq, run, c.perform_eq]

/-- A transport that holds just what the steps tell. -/
structure Reflects (steps : List MockStep) (t : MockTransport) : Prop where
  requests : t.requests = recorded steps
  canned : ∀ method path, t.canned.lookup (method, path) = given? steps method path

theorem Reflects.answer {steps : List MockStep} {t : MockTransport} (h : Reflects steps t)
    (r : Request) : t.answer r = (given? steps r.method r.path).getD (unasked r.method) := by
  rw [MockTransport.answer, h.canned, standardAnswer_eq]

theorem recorded_concat (steps : List MockStep) (s : MockStep) :
    recorded (steps ++ [s]) = if s.isClear then [] else recorded steps ++ s.request?.toList := by
  unfold recorded
  cases hs : s.isClear with
  | true => rw [List.rtakeWhile_concat_neg _ _ _ (by simp [hs])]; rfl
  | false =>
    rw [List.rtakeWhile_concat_pos _ _ _ (by simp [hs]), List.filterMap_append]
    cases hr : s.request? <;> simp [hr]

theorem given?_concat (steps : List MockStep) (s : MockStep) (method : Method) (path : String) :
    given? (steps ++ [s]) method path = (s.gives? method path).or (given? steps method path) := by
  unfold given?
  rw [List.filterMap_append]
  cases hs : s.gives? method path <;> simp [hs]

theorem Reflects.run {steps : List MockStep} {t : MockTransport} (h : Reflects steps t)
    (s : MockStep) : Reflects (steps ++ [s]) (s.run t).2 := by
  cases s with
  | respond method path response =>
    refine ⟨?_, fun m p => ?_⟩
    · rw [recorded_concat]
      exact h.requests.trans (List.append_nil _).symm
    · rw [given?_concat, ← h.canned]
      by_cases hkey : method = m ∧ path = p
      · obtain ⟨rfl, rfl⟩ := hkey
        simp [MockStep.run, MockTransport.respond, MockStep.gives?]
      · have hne : ((m, p) == (method, path)) = false := by
          rw [beq_eq_false_iff_ne, ne_eq, Prod.mk.injEq]
          exact fun he => hkey ⟨he.1.symm, he.2.symm⟩
        simp [MockStep.run, MockTransport.respond, MockStep.gives?, hkey, List.lookup_cons, hne]
  | clear =>
    refine ⟨?_, fun m p => ?_⟩
    · rw [recorded_concat]
      rfl
    · rw [given?_concat, ← h.canned]
      rfl
  | call base segments c =>
    obtain ⟨r, hr, hrun⟩ := MockStep.run_call base segments c t
    rw [hrun]
    refine ⟨?_, fun m p => ?_⟩
    · rw [recorded_concat, hr, MockTransport.record, h.requests]
      rfl
    · rw [given?_concat, ← h.canned]
      rfl

theorem Reflects.answered {steps : List MockStep} {t : MockTransport} (h : Reflects steps t)
    (s : MockStep) : (s.run t).1 = s.due? steps := by
  cases s with
  | respond | clear => rfl
  | call base segments c =>
    obtain ⟨r, hr, hrun⟩ := MockStep.run_call base segments c t
    rw [hrun, MockStep.due?, hr, Option.map_some, h.answer]

/-! ## All steps -/

theorem reflects_after (steps : List MockStep) :
    Reflects steps (MockTransport.empty.after steps) := by
  induction steps using List.reverseRecOn with
  | nil => exact ⟨rfl, fun _ _ => rfl⟩
  | append_singleton steps s ih =>
    rw [MockTransport.after_concat]
    exact ih.run s

/-- What a test can learn of its steps from a transport and from its answers. -/
structure DispatchTrace (steps : List MockStep) (answers : List MockAnswer) (t : MockTransport) :
    Prop where
  requests : t.requests = recorded steps
  last : t.lastRequest? = (recorded steps).getLast?
  length : answers.length = steps.length
  answered : ∀ before s later, steps = before ++ s :: later →
    answers[before.length]? = some (s.due? before)

/-- **The trace of a test.** After any steps on a new transport, its records are the requests of the
calls since the records were last forgotten, those with a failed answer among them; and every call
was answered what was last given for its method and path, or else the standard answer, as an error
just where that is no success. -/
theorem dispatch_trace (steps : List MockStep) : DispatchTrace steps
    (MockTransport.empty.answers steps) (MockTransport.empty.after steps) := by
  have hrequests := (reflects_after steps).requests
  refine ⟨hrequests, congrArg List.getLast? hrequests, MockTransport.length_answers _ steps, ?_⟩
  rintro before s later rfl
  rw [MockTransport.answers_append, List.getElem?_append_right
    (MockTransport.length_answers _ before).le, MockTransport.length_answers, Nat.sub_self]
  exact congrArg some ((reflects_after before).answered s)

end RestForge.Rest
