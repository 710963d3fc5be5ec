import Dizzchat.Transition.Rose
import Mathlib.Data.List.ReduceOption
import Mathlib.Data.List.Sort
import Mathlib.Data.String.Basic

set_option autoImplicit false

/-! # The commit before the response

`get_session` opens the session of a request and never commits it: `TransactionalRoute` does, when the
handler has returned and before its response is handed on. `assert_session_routes_are_transactional`
refuses routers with a route that takes a session and is not of that class. The first half reads the
trees of routers and of dependencies, the second runs a request; `sessionRoutes_commit` puts them
together. -/

namespace Dizzchat

open Transition

/-! ## Routes and their dependencies -/

/-- What can be injected; `call is get_session` compares identities. -/
inductive Callable
  | getSession
  | other (identity : ℕ)
deriving DecidableEq

/-- A `Dependant`: a node has its `call`, and below it its `dependencies`. -/
abbrev Dependant := Rose (Option Callable)

/-- An `APIRoute`. The methods are a set, here its elements in some order. -/
structure APIRoute where
  /-- `isinstance(route, TransactionalRoute)` -/
  transactional : Bool
  methods : Option (List String)
  path : String
  dependant : Dependant

/-- A route of a router: a node has the `APIRoute`, if it is one, and below it the routes of its
    `original_router`, if it has one. -/
abbrev BaseRoute := Rose (Option APIRoute)

structure APIRouter where
  routes : List BaseRoute

structure RuntimeError where
  message : String
  offenders : List String

/-- `_depends_on_session` -/
def dependsOnSession : Dependant → Bool :=
  Rose.any fun call => decide (call = some .getSession)

/-- `_api_routes` -/
def apiRoutes (routers : List APIRouter) : List APIRoute :=
  routers.flatMap fun router => (Rose.preorders router.routes).reduceOption

namespace APIRoute

/-- `f"{'/'.join(sorted(route.methods or []))} {route.path}"` -/
def label (route : APIRoute) : String :=
  "/".intercalate ((route.methods.getD []).insertionSort (· ≤ ·)) ++ " " ++ route.path

def offends (route : APIRoute) : Bool :=
  !route.transactional && dependsOnSession route.dependant

end APIRoute

/-- `assert_session_routes_are_transactional` -/
def assertSessionRoutesAreTransactional (routers : List APIRouter) : Except RuntimeError Unit :=
  let offenders := ((apiRoutes routers).filter APIRoute.offends).map APIRoute.label
  if offenders = [] then .ok ()
  else .error
    { message := "these routes depend on get_session but their router is missing " ++
        "route_class=TransactionalRoute, so their writes would never commit: "
      offenders }

/-- The recursion of `_depends_on_session`. -/
theorem dependsOnSession_node (call : Option Callable) (dependencies : List Dependant) :
    dependsOnSession (.node call dependencies) =
      (decide (call = some .getSession) || dependencies.any dependsOnSession) := by
  rw [dependsOnSession, Rose.any, Rose.anys_eq]

/-- The recursion of `_api_routes`: a route yields itself, and then what its `original_router` has. -/
theorem apiRoutes_cons (route : Option APIRoute) (nested routes : List BaseRoute)
    (routers : List APIRouter) :
    apiRoutes (⟨.node route nested :: routes⟩ :: routers) =
      route.toList ++ apiRoutes [⟨nested⟩] ++ apiRoutes (⟨routes⟩ :: routers) := by
  cases route with
  | none =>
      simp [apiRoutes, Rose.preorders, Rose.preorder, List.reduceOption_append,
        List.reduceOption_cons_of_none]
  | some route =>
      simp [apiRoutes, Rose.preorders, Rose.preorder, List.reduceOption_append,
        List.reduceOption_cons_of_some]

/-! ## Which routers are refused -/

/-- The route is registered on one of the routers, or on one nested in them. -/
def Reaches (routers : List APIRouter) (route : APIRoute) : Prop :=
  ∃ router ∈ routers, ∃ base ∈ router.routes, base.Occurs (some route)

/-- `get_session` is somewhere in the dependency tree. -/
def APIRoute.TakesSession (route : APIRoute) : Prop := route.dependant.Occurs (some .getSession)

theorem dependsOnSession_iff (route : APIRoute) :
    dependsOnSession route.dependant = true ↔ route.TakesSession := by
  rw [dependsOnSession, Rose.any_eq_true]
  constructor
  · rintro ⟨call, hoccurs, hcall⟩
    rwa [of_decide_eq_true hcall] at hoccurs
  · intro hoccurs
    exact ⟨_, hoccurs, decide_eq_true rfl⟩

theorem mem_apiRoutes {routers : List APIRouter} {route : APIRoute} :
    route ∈ apiRoutes routers ↔ Reaches routers route := by
  simp only [apiRoutes, Reaches, List.mem_flatMap, List.reduceOption_mem_iff, Rose.preorders_eq,
    Rose.mem_preorder]

theorem offends_iff (route : APIRoute) :
    route.offends = true ↔ route.transactional = false ∧ route.TakesSession := by
  rw [APIRoute.offends, Bool.and_eq_true, Bool.not_eq_true', dependsOnSession_iff]

/-- The routes that are refused. -/
theorem mem_offenders {routers : List APIRouter} {route : APIRoute} :
    route ∈ (apiRoutes routers).filter APIRoute.offends ↔
      Reaches routers route ∧ route.transactional = false ∧ route.TakesSession := by
  rw [List.mem_filter, mem_apiRoutes, offends_iff]

theorem assert_eq_ok (routers : List APIRouter) :
    assertSessionRoutesAreTransactional routers = .ok () ↔
      ∀ route, Reaches routers route → route.TakesSession → route.transactional = true := by
  have hempty : ((apiRoutes routers).filter APIRoute.offends).map APIRoute.label = [] ↔
      ∀ route, Reaches routers route → route.TakesSession → route.transactional = true := by
    rw [List.map_eq_nil_iff, List.eq_nil_iff_forall_not_mem]
    refine forall_congr' fun route => ?_
    rw [mem_offenders, not_and, not_and']
    simp only [Bool.not_eq_false]
  rw [← hempty, assertSessionRoutesAreTransactional]
  split
  · next h => exact iff_of_true rfl h
  · next h => exact iff_of_false (by simp) h

/-- Who is named is refused, and who is refused is named, in the order of the routers. -/
theorem assert_eq_error {routers : List APIRouter} {e : RuntimeError}
    (h : assertSessionRoutesAreTransactional routers = .error e) :
    e.offenders = ((apiRoutes routers).filter APIRoute.offends).map APIRoute.label := by
  simp only [assertSessionRoutesAreTransactional] at h
  split at h
  · cases h
  · cases h
    rfl

/-- The route class is forgotten on one router, and on a router nested in another, two dependencies
    deep. -/
example :
    let session : Dependant := .node (some .getSession) []
    let forgot : APIRoute := ⟨false, some ["POST"], "/forgot-the-route-class", .node none [session]⟩
    let deep : APIRoute := ⟨false, some ["PUT", "GET"], "/deep",
      .node none [.node (some (.other 1)) [], .node (some (.other 2)) [session]]⟩
    let kept : APIRoute := { forgot with transactional := true }
    let offenders (routers : List APIRouter) :=
      (assertSessionRoutesAreTransactional routers).mapError RuntimeError.offenders
    offenders [⟨[.node (some kept) []]⟩] = .ok () ∧
      offenders [⟨[.node (some kept) [], .node (some forgot) []]⟩,
          ⟨[.node none [.node none [.node (some deep) []]]]⟩] =
        .error ["POST /forgot-the-route-class", "GET/PUT /deep"] := by
  decide +kernel

/-! ## Running a request -/

section Request

variable {ω ε ρ : Type*}

/-- What is sent through a session before its commit. -/
inductive Statement (ω : Type*)
  | write (w : ω)
  | rollback
deriving DecidableEq

/-- What a transaction holds after a statement. -/
def Statement.apply (pending : List ω) : Statement ω → List ω
  | .write w => pending ++ [w]
  | .rollback => []

inductive RequestEvent (ω ε ρ : Type*)
  | opened
  | statement (statement : Statement ω)
  | committed
  | rolledBack
  | closed
  /-- The response goes to the server, to be sent. -/
  | handedOn (response : ρ)
  | raised (error : ε)
deriving DecidableEq

/-- How everything a request calls behaves: what it sends through the session, and how it ends. The
    handler writes, and leaves the commit to its route. -/
structure Serving (ω ε ρ : Type*) where
  /-- Entering `session_factory()`. -/
  opens : Except ε Unit
  dependency : ℕ → List (Statement ω) × Except ε Unit
  /-- The controller, and making a response of what it returns. -/
  endpoint : List (Statement ω) × Except ε ρ
  /-- `await session.commit()` -/
  commits : Except ε Unit

/-- A request: which dependencies have been called, what its session holds that is not committed,
    what is committed, and what has happened. -/
structure RequestScope (ω ε ρ : Type*) where
  called : List Callable
  dbSession : Option (List ω)
  database : List ω
  events : List (RequestEvent ω ε ρ)

namespace RequestScope

def start (database : List ω) : RequestScope ω ε ρ := ⟨[], none, database, []⟩

def log (events : List (RequestEvent ω ε ρ)) (scope : RequestScope ω ε ρ) : RequestScope ω ε ρ :=
  { scope with events := scope.events ++ events }

/-- Statements go through the session the request has; one without has nowhere to send them. -/
def send (statements : List (Statement ω)) (scope : RequestScope ω ε ρ) : RequestScope ω ε ρ :=
  match scope.dbSession with
  | none => scope
  | some pending =>
      { scope with dbSession := some (statements.foldl Statement.apply pending) }.log
        (statements.map .statement)

end RequestScope

/-- A dependency is called once in a request. `get_session` publishes its session on
    `request.state`. -/
def Serving.call (serving : Serving ω ε ρ) (call : Option Callable) (scope : RequestScope ω ε ρ) :
    RequestScope ω ε ρ × Except ε Unit :=
  match call with
  | none => (scope, .ok ())
  | some call =>
      if call ∈ scope.called then (scope, .ok ())
      else
        match call with
        | .getSession => match serving.opens with
            | .error e => (scope, .error e)
            | .ok () =>
                ({ scope with called := call :: scope.called, dbSession := some [] }.log [.opened],
                  .ok ())
        | .other identity =>
            ({ scope with called := call :: scope.called }.send (serving.dependency identity).1,
              (serving.dependency identity).2)

/-- `solve_dependencies`, on the calls in the order it makes them. -/
def Serving.solve (serving : Serving ω ε ρ) :
    List (Option Callable) → RequestScope ω ε ρ → RequestScope ω ε ρ × Except ε Unit
  | [], scope => (scope, .ok ())
  | call :: calls, scope =>
      match serving.call call scope with
      | (scope, .error e) => (scope, .error e)
      | (scope, .ok ()) => serving.solve calls scope

namespace APIRoute

/-- `APIRoute.get_route_handler`: the dependencies, each after its own, and then the endpoint. -/
def handler (route : APIRoute) (serving : Serving ω ε ρ) (scope : RequestScope ω ε ρ) :
    RequestScope ω ε ρ × Except ε ρ :=
  match serving.solve (Rose.postorders route.dependant.children) scope with
  | (scope, .error e) => (scope, .error e)
  | (scope, .ok ()) => (scope.send serving.endpoint.1, serving.endpoint.2)

end APIRoute

/-- `commit_before_responding` -/
def TransactionalRoute.commitBeforeResponding (serving : Serving ω ε ρ)
    (handled : RequestScope ω ε ρ × Except ε ρ) : RequestScope ω ε ρ × Except ε ρ :=
  match handled with
  | (scope, .error e) => (scope, .error e)
  | (scope, .ok response) => match scope.dbSession with
      | none => (scope, .ok response)
      | some pending => match serving.commits with
          | .error e => (scope, .error e)
          | .ok () => ({ scope with dbSession := some [], database := scope.database ++ pending }.log
              [.committed], .ok response)

/-- `get_route_handler` of the route's class. -/
def APIRoute.getRouteHandler (route : APIRoute) (serving : Serving ω ε ρ)
    (scope : RequestScope ω ε ρ) : RequestScope ω ε ρ × Except ε ρ :=
  if route.transactional then
    TransactionalRoute.commitBeforeResponding serving (route.handler serving scope)
  else route.handler serving scope

/-- The teardown of `get_session`, after the `yield` or an exception there. Closing the session drops
    what it has not committed. -/
def RequestScope.exit (raises : Bool) (scope : RequestScope ω ε ρ) : RequestScope ω ε ρ :=
  match scope.dbSession with
  | none => scope
  | some _ => { scope with dbSession := none }.log (if raises then [.rolledBack, .closed] else [.closed])

/-- A request to the route. The dependencies are torn down once the response is handed on, or as the
    exception passes them. -/
def APIRoute.respond (route : APIRoute) (serving : Serving ω ε ρ) (database : List ω) :
    RequestScope ω ε ρ :=
  match route.getRouteHandler serving (.start database) with
  | (scope, .ok response) => (scope.log [.handedOn response]).exit false
  | (scope, .error e) => (scope.exit true).log [.raised e]

/-! ## What the handler leaves -/

/-- What the session holds after an event. -/
def RequestEvent.apply (pending : List ω) : RequestEvent ω ε ρ → List ω
  | .opened => []
  | .statement sent => sent.apply pending
  | .committed | .rolledBack | .closed | .handedOn _ | .raised _ => pending

/-- What was sent through the session and not taken back. -/
def unsaved (events : List (RequestEvent ω ε ρ)) : List ω := events.foldl RequestEvent.apply []

/-- The event is neither a commit nor the end of the request. -/
def RequestEvent.quiet : RequestEvent ω ε ρ → Bool
  | .opened | .statement _ | .rolledBack | .closed => true
  | .committed | .handedOn _ | .raised _ => false

/-- A request whose handler is running, over what was committed before it. -/
structure RequestScope.Handling (database : List ω) (scope : RequestScope ω ε ρ) : Prop where
  database : scope.database = database
  quiet : ∀ event ∈ scope.events, event.quiet = true
  session : ∀ pending, scope.dbSession = some pending →
    pending = unsaved scope.events ∧ .opened ∈ scope.events
  published : .getSession ∈ scope.called → scope.dbSession ≠ none

section Handling

variable {database : List ω} {scope scope' : RequestScope ω ε ρ}

theorem handling_start (database : List ω) :
    (RequestScope.start database : RequestScope ω ε ρ).Handling database where
  database := rfl
  quiet event hevent := absurd hevent List.not_mem_nil
  session pending hpending := by cases hpending
  published hcalled := absurd hcalled List.not_mem_nil

theorem send_called (statements : List (Statement ω)) :
    (scope.send statements).called = scope.called := by
  unfold RequestScope.send
  split <;> rfl

theorem send_handling (h : scope.Handling database) (statements : List (Statement ω)) :
    (scope.send statements).Handling database := by
  unfold RequestScope.send
  split
  · exact h
  · next pending hpending =>
      obtain ⟨hunsaved, hopened⟩ := h.session pending hpending
      refine ⟨h.database, ?_, ?_, fun _ => by simp [RequestScope.log]⟩
      · intro event hevent
        rcases List.mem_append.1 hevent with hold | hnew
        · exact h.quiet event hold
        · obtain ⟨statement, -, rfl⟩ := List.mem_map.1 hnew
          rfl
      · intro pending' hpending'
        cases hpending'
        refine ⟨?_, List.mem_append_left _ hopened⟩
        simp only [RequestScope.log, unsaved, List.foldl_append, List.foldl_map]
        rw [← unsaved, ← hunsaved]
        rfl

variable {serving : Serving ω ε ρ}

/-- What calling a dependency does: nothing, where it was called before; `get_session` raises, or opens
    its session; any other sends its statements and ends as it does. -/
inductive Serving.Calls (serving : Serving ω ε ρ) (scope : RequestScope ω ε ρ) :
    Option Callable → RequestScope ω ε ρ × Except ε Unit → Prop
  | nothing {call : Option Callable} (hcalled : ∀ c, call = some c → c ∈ scope.called) :
      Calls serving scope call (scope, .ok ())
  | raises {e : ε} : Calls serving scope (some .getSession) (scope, .error e)
  | opens : Calls serving scope (some .getSession)
      ({ scope with called := .getSession :: scope.called, dbSession := some [] }.log [.opened],
        .ok ())
  | sends (identity : ℕ) : Calls serving scope (some (.other identity))
      ({ scope with called := .other identity :: scope.called }.send (serving.dependency identity).1,
        (serving.dependency identity).2)

theorem call_calls (serving : Serving ω ε ρ) (call : Option Callable) (scope : RequestScope ω ε ρ) :
    serving.Calls scope call (serving.call call scope) := by
  cases call with
  | none => exact .nothing fun c hc => by cases hc
  | some call =>
      by_cases hcalled : call ∈ scope.called
      · have hnothing : serving.call (some call) scope = (scope, .ok ()) := if_pos hcalled
        rw [hnothing]
        refine .nothing fun c hc => ?_
        cases hc
        exact hcalled
      · unfold Serving.call
        simp only [if_neg hcalled]
        cases call with
        | getSession =>
            cases serving.opens with
            | error e => exact .raises
            | ok => exact .opens
        | other identity => exact .sends identity

/-- Whoever has called `get_session` has its session. -/
theorem call_handling (serving : Serving ω ε ρ) (h : scope.Handling database)
    (call : Option Callable) : (serving.call call scope).1.Handling database := by
  have hcalls := call_calls serving call scope
  generalize serving.call call scope = result at hcalls
  cases hcalls with
  | nothing | raises => exact h
  | opens =>
      refine ⟨h.database, ?_, ?_, fun _ => by simp [RequestScope.log]⟩
      · intro event hevent
        rcases List.mem_append.1 hevent with hold | hnew
        · exact h.quiet event hold
        · rw [List.mem_singleton.1 hnew]
          rfl
      · intro pending hpending
        cases hpending
        refine ⟨?_, List.mem_append_right _ (List.mem_singleton_self _)⟩
        simp only [RequestScope.log, unsaved, List.foldl_append]
        rfl
  | sends identity =>
      have hother : RequestScope.Handling database
          { scope with called := .other identity :: scope.called } := by
        refine ⟨h.database, h.quiet, h.session, fun hcalled => ?_⟩
        rcases List.mem_cons.1 hcalled with hcall | hbefore
        · cases hcall
        · exact h.published hbefore
      exact send_handling hother _

/-- A dependency that has returned counts as called. -/
theorem call_called {call : Option Callable} (h : serving.call call scope = (scope', .ok ())) :
    scope.called ⊆ scope'.called ∧ ∀ c, call = some c → c ∈ scope'.called := by
  have hcalls := call_calls serving call scope
  rw [h] at hcalls
  have hadded : ∀ c, scope'.called = c :: scope.called → call = some c →
      scope.called ⊆ scope'.called ∧ ∀ d, call = some d → d ∈ scope'.called := by
    intro c hscope hcall
    rw [hscope, hcall]
    refine ⟨List.subset_cons_self _ _, fun d hd => ?_⟩
    cases hd
    exact List.mem_cons_self
  generalize hresult : (scope', Except.ok ()) = result at hcalls
  cases hcalls with
  | nothing hcalled =>
      cases hresult
      exact ⟨List.Subset.refl _, hcalled⟩
  | raises => cases hresult
  | opens =>
      cases hresult
      exact hadded _ rfl rfl
  | sends identity =>
      have hscope : scope' = _ := congrArg Prod.fst hresult
      refine hadded (.other identity) ?_ rfl
      rw [hscope, send_called]

theorem solve_handling (serving : Serving ω ε ρ) (h : scope.Handling database)
    (calls : List (Option Callable)) :
    (serving.solve calls scope).1.Handling database := by
  induction calls generalizing scope with
  | nil => exact h
  | cons call calls ih =>
      have hcall := call_handling serving h call
      rw [Serving.solve]
      split
      · next hraises =>
          rwa [hraises] at hcall
      · next hreturns =>
          rw [hreturns] at hcall
          exact ih hcall

/-- When all are solved each has been called. -/
theorem solve_called {calls : List (Option Callable)}
    (h : serving.solve calls scope = (scope', .ok ())) :
    scope.called ⊆ scope'.called ∧ ∀ c, some c ∈ calls → c ∈ scope'.called := by
  induction calls generalizing scope with
  | nil =>
      cases h
      exact ⟨List.Subset.refl _, fun c hc => absurd hc List.not_mem_nil⟩
  | cons call calls ih =>
      rw [Serving.solve] at h
      split at h
      · cases h
      · next hreturns =>
          obtain ⟨hkept, hcalled⟩ := call_called hreturns
          obtain ⟨hlater, hrest⟩ := ih h
          refine ⟨List.Subset.trans hkept hlater, fun c hc => ?_⟩
          rcases List.mem_cons.1 hc with hfirst | hothers
          · exact hlater (hcalled c hfirst.symm)
          · exact hrest c hothers

theorem handler_handling (route : APIRoute) (serving : Serving ω ε ρ)
    (h : scope.Handling database) :
    (route.handler serving scope).1.Handling database := by
  have hsolve := solve_handling serving h (Rose.postorders route.dependant.children)
  unfold APIRoute.handler
  split
  · next hraises => rwa [hraises] at hsolve
  · next hreturns =>
      rw [hreturns] at hsolve
      exact send_handling hsolve _

end Handling

/-- `get_session` is among the dependencies. -/
def APIRoute.OpensSession (route : APIRoute) : Prop :=
  ∃ sub ∈ route.dependant.children, sub.Occurs (some .getSession)

theorem APIRoute.OpensSession.takesSession {route : APIRoute} (h : route.OpensSession) :
    route.TakesSession := by
  obtain ⟨sub, hsub, hoccurs⟩ := h
  unfold APIRoute.TakesSession
  generalize route.dependant = dependant at hsub
  cases dependant with
  | node call dependencies => exact .child hsub hoccurs

section Respond

variable {route : APIRoute} {serving : Serving ω ε ρ} {scope : RequestScope ω ε ρ}
  {database : List ω}

/-- A handler that returns has its session. -/
theorem handler_session (hopens : route.OpensSession) {response : ρ}
    (h : route.handler serving (.start database) = (scope, .ok response)) :
    ∃ pending, scope.dbSession = some pending := by
  have hhandling : scope.Handling database := by
    have hstart := handler_handling route serving (handling_start database)
    rwa [h] at hstart
  refine Option.ne_none_iff_exists'.1 (hhandling.published ?_)
  unfold APIRoute.handler at h
  split at h
  · cases h
  · next solved hsolved =>
      rw [Prod.mk.injEq] at h
      rw [← h.1, send_called]
      refine (solve_called hsolved).2 .getSession ?_
      obtain ⟨sub, hsub, hoccurs⟩ := hopens
      rw [Rose.postorders_eq, List.mem_flatMap]
      exact ⟨sub, hsub, Rose.mem_postorder.2 hoccurs⟩

/-- The teardown commits nothing and ends nothing. -/
theorem exit_eq (raises : Bool) (scope : RequestScope ω ε ρ) :
    (scope.exit raises).database = scope.database ∧
      ∃ tail, (scope.exit raises).events = scope.events ++ tail ∧
        ∀ event ∈ tail, event.quiet = true := by
  unfold RequestScope.exit
  split
  · exact ⟨rfl, [], (List.append_nil _).symm, fun event hevent => absurd hevent List.not_mem_nil⟩
  · refine ⟨rfl, _, rfl, ?_⟩
    cases raises <;> simp [RequestEvent.quiet]

/-- The response of a route that takes a session is handed on when its commit has succeeded, with all
    that was sent through the session; where the handler or the commit raises, nothing is handed on
    and nothing committed. -/
structure APIRoute.CommitsFirst (route : APIRoute) (serving : Serving ω ε ρ) (database : List ω) :
    Prop where
  sent : ∀ response, .handedOn response ∈ (route.respond serving database).events →
    ∃ before after, (route.respond serving database).events = before ++ .committed :: after ∧
      .opened ∈ before ∧ .handedOn response ∈ after ∧
      (route.respond serving database).database = database ++ unsaved before
  raises : ∀ e, (route.handler serving (.start database)).2 = .error e ∨ serving.commits = .error e →
    (∀ response, .handedOn response ∉ (route.respond serving database).events) ∧
      .committed ∉ (route.respond serving database).events ∧
      (route.respond serving database).database = database
  returns : ∀ response, (route.handler serving (.start database)).2 = .ok response →
    serving.commits = .ok () → .handedOn response ∈ (route.respond serving database).events

/-- What has raised leaves a request with nothing handed on and nothing committed. -/
theorem respond_of_error (hhandling : scope.Handling database) {e : ε}
    (h : route.getRouteHandler serving (.start database) = (scope, .error e)) :
    (∀ response, .handedOn response ∉ (route.respond serving database).events) ∧
      .committed ∉ (route.respond serving database).events ∧
      (route.respond serving database).database = database := by
  obtain ⟨hdatabase, tail, htail, hquiet⟩ := exit_eq true scope
  have hevents : (route.respond serving database).events = (scope.events ++ tail) ++ [.raised e] := by
    rw [APIRoute.respond, h, ← htail]
    rfl
  have hloud : ∀ event, event.quiet = false → event ∈ (route.respond serving database).events →
      event = .raised e := by
    intro event hevent hmem
    rw [hevents] at hmem
    rcases List.mem_append.1 hmem with hold | hlast
    · have htrue : event.quiet = true :=
        (List.mem_append.1 hold).elim (hhandling.quiet event) (hquiet event)
      rw [hevent] at htrue
      cases htrue
    · exact List.mem_singleton.1 hlast
  refine ⟨fun response hmem => ?_, fun hmem => ?_, ?_⟩
  · cases hloud _ rfl hmem
  · cases hloud _ rfl hmem
  · rw [APIRoute.respond, h]
    exact hdatabase.trans hhandling.database

/-- What has been committed and handed on. -/
theorem respond_of_commit (hhandling : scope.Handling database) {pending : List ω}
    (hpending : scope.dbSession = some pending) {response : ρ}
    (h : route.getRouteHandler serving (.start database) =
      ({ scope with dbSession := some [], database := scope.database ++ pending }.log [.committed],
        .ok response)) :
    (route.respond serving database).events =
        scope.events ++ .committed :: [.handedOn response, .closed] ∧
      .opened ∈ scope.events ∧
      (route.respond serving database).database = database ++ unsaved scope.events := by
  obtain ⟨hunsaved, hopened⟩ := hhandling.session pending hpending
  rw [APIRoute.respond, h]
  refine ⟨?_, hopened, ?_⟩
  · simp [RequestScope.exit, RequestScope.log]
  · simp [RequestScope.exit, RequestScope.log, hhandling.database, ← hunsaved]

theorem commitsFirst_of_transactional (htransactional : route.transactional = true)
    (hopens : route.OpensSession) (serving : Serving ω ε ρ) (database : List ω) :
    route.CommitsFirst serving database := by
  have hhandling := handler_handling route serving (handling_start database)
  have hroute : route.getRouteHandler serving (.start database) =
      TransactionalRoute.commitBeforeResponding serving
        (route.handler serving (.start database)) := by
    rw [APIRoute.getRouteHandler, if_pos htransactional]
  cases hhandler : route.handler serving (.start database) with
  | mk scope outcome =>
      rw [hhandler] at hhandling hroute
      cases outcome with
      | error e =>
          obtain ⟨hnone, hcommitted, hdatabase⟩ := respond_of_error hhandling hroute
          refine ⟨fun response hmem => absurd hmem (hnone response),
            fun _ _ => ⟨hnone, hcommitted, hdatabase⟩, fun response hreturns => ?_⟩
          rw [hhandler] at hreturns
          cases hreturns
      | ok response =>
          obtain ⟨pending, hpending⟩ := handler_session hopens hhandler
          simp only [TransactionalRoute.commitBeforeResponding, hpending] at hroute
          cases hcommits : serving.commits with
          | error e =>
              rw [hcommits] at hroute
              obtain ⟨hnone, hcommitted, hdatabase⟩ := respond_of_error hhandling hroute
              refine ⟨fun response hmem => absurd hmem (hnone response),
                fun _ _ => ⟨hnone, hcommitted, hdatabase⟩, fun _ _ hcommit => ?_⟩
              rw [hcommits] at hcommit
              cases hcommit
          | ok =>
              rw [hcommits] at hroute
              obtain ⟨hevents, hopened, hdatabase⟩ :=
                respond_of_commit hhandling hpending hroute
              refine ⟨fun answer hmem => ⟨scope.events, _, hevents, hopened, ?_, hdatabase⟩,
                fun e hraises => ?_, fun answer hreturns _ => ?_⟩
              · rw [hevents] at hmem
                rcases List.mem_append.1 hmem with hold | hlater
                · cases hhandling.quiet _ hold
                · rcases List.mem_cons.1 hlater with hcommit | hafter
                  · cases hcommit
                  · exact hafter
              · rw [hhandler, hcommits] at hraises
                rcases hraises with hhandlerRaises | hcommitRaises
                · cases hhandlerRaises
                · cases hcommitRaises
              · rw [hhandler] at hreturns
                cases hreturns
                rw [hevents]
                simp

/-- A route of the plain class hands its response on, and drops what the handler has written. -/
theorem respond_of_plain (hplain : route.transactional = false) (serving : Serving ω ε ρ)
    (database : List ω) : (route.respond serving database).database = database := by
  have hhandling := handler_handling route serving (handling_start database)
  have hroute : route.getRouteHandler serving (.start database) =
      route.handler serving (.start database) := by
    rw [APIRoute.getRouteHandler, hplain]
    rfl
  rw [APIRoute.respond, hroute]
  generalize route.handler serving (.start database) = handled at hhandling
  obtain ⟨scope, outcome⟩ := handled
  cases outcome with
  | error e => exact (exit_eq true scope).1.trans hhandling.database
  | ok response => exact (exit_eq false _).1.trans hhandling.database

end Respond

end Request

/-! ## The result -/

/-- The routers are refused if and only if some route on them, however deep, takes a session and is not
    transactional, and those are named. Where they are accepted, every route that opens a session
    commits it before its response is handed on. -/
theorem sessionRoutes_commit (routers : List APIRouter) :
    ((∃ e, assertSessionRoutesAreTransactional routers = .error e) ↔
        ∃ route, Reaches routers route ∧ route.transactional = false ∧ route.TakesSession) ∧
      (∀ e, assertSessionRoutesAreTransactional routers = .error e →
        ∃ routes : List APIRoute, e.offenders = routes.map APIRoute.label ∧
          ∀ route, route ∈ routes ↔
            Reaches routers route ∧ route.transactional = false ∧ route.TakesSession) ∧
      (assertSessionRoutesAreTransactional routers = .ok () →
        ∀ route, Reaches routers route → route.OpensSession →
          ∀ {ω ε ρ : Type*} (serving : Serving ω ε ρ) (database : List ω),
            route.CommitsFirst serving database) := by
  have hok := assert_eq_ok routers
  refine ⟨⟨?_, ?_⟩, fun e he => ⟨_, assert_eq_error he, fun route => mem_offenders⟩, ?_⟩
  · rintro ⟨e, he⟩
    by_contra hnone
    have haccepted := hok.2 fun route hreaches htakes => by
      by_contra hplain
      exact hnone ⟨route, hreaches, Bool.not_eq_true _ ▸ hplain, htakes⟩
    rw [he] at haccepted
    cases haccepted
  · rintro ⟨route, hreaches, hplain, htakes⟩
    cases hassert : assertSessionRoutesAreTransactional routers with
    | error e => exact ⟨e, rfl⟩
    | ok =>
        have htransactional := hok.1 hassert route hreaches htakes
        rw [hplain] at htransactional
        cases htransactional
  · intro haccepted route hreaches hopens ω ε ρ serving database
    exact commitsFirst_of_transactional (hok.1 haccepted route hreaches hopens.takesSession) hopens
      serving database

end Dizzchat
