import Factbase.Proofs.Body
import Factbase.Proofs.Retraction
import Factbase.Service.Run

/-!
# Factbase.Proofs.Serving

Requests to the service come to the same as calls of the database. Each request that is accepted
gets the next number and is answered with what the database yields when it is called directly; only
transactions change the database, and requests that are not accepted leave no trace.
-/

namespace Factbase.Service

/-! ### Responses -/

/-- An entry of the object that a response has for a body. -/
def Response.field? (r : Response) (name : String) : Option Json :=
  match r.body with
  | some (.object entries) => entries.lookup name
  | _ => none

/-- How a cell of an answer stands in a response: without the kind of its value. A cell without a
value and a float that is no finite number are null. -/
inductive ShownAs : Option Value → Json → Prop where
  | nothing : ShownAs none .null
  | text (s : String) : ShownAs (some (.text s)) (.text s)
  | int (n : Int64) : ShownAs (some (.int n)) (.int n.toInt)
  | float {x : Binary64} (finite : x.isFinite = true) : ShownAs (some (.float x)) (.float x)
  | notFinite {x : Binary64} (infinite : x.isFinite = false) : ShownAs (some (.float x)) .null
  | bool (b : Bool) : ShownAs (some (.bool b)) (.bool b)
  | bytes (bs : List UInt8) :
      ShownAs (some (.bytes bs)) (.list (bs.map fun b => .int b.toNat))
  | ref (e : EntityId) : ShownAs (some (.ref e)) (.int e)

/-- How the entity given to a placeholder stands in a response: under the token of the placeholder,
or one from the surroundings if it has none. -/
inductive GivenAs (around : Surroundings) : Placeholder × EntityId → String × Json → Prop where
  | token (s : String) (e : EntityId) : GivenAs around (.token s, e) (s, .int e)
  | unnamed (n : Nat) (e : EntityId) : GivenAs around (.unnamed n, e) (around.token n, .int e)

/-- A response that says why a request has failed: whether the request is to blame, and the message
of the fault. -/
structure Reports (r : Response) (fault : Fault) : Prop where
  status : r.status =
    if fault.kind ∈ [.parse, .unknownIdentity, .unsupportedReference, .unsupportedValue] then 400
    else 500
  error : r.field? "error" = some (.text fault.message)

/-- A numbered response with the outcome of a query. -/
structure AnswersQuery (r : Response) (id : Nat)
    (outcome : Except Fault (Option (List Query.AnswerRow))) : Prop where
  id : r.field? "id" = some (.int id)
  status : r.status = 200 ↔ ∃ answer, outcome = .ok answer
  rows : ∀ rows, outcome = .ok (some rows) → ∃ shown,
    List.Forall₂ (List.Forall₂ ShownAs) rows shown ∧
      r.field? "rows" = some (.list (shown.map .list)) ∧
      r.field? "row_count" = some (.int rows.length)
  noRows : outcome = .ok none → r.field? "rows" = some .null ∧ r.field? "row_count" = none
  failed : ∀ fault, outcome = .error fault → Reports r fault

/-- A numbered response with the outcome of a transaction. -/
structure AnswersTransact (around : Surroundings) (r : Response) (id : Nat)
    (outcome : Except Fault Receipt) : Prop where
  id : r.field? "id" = some (.int id)
  status : r.status = 200 ↔ ∃ receipt, outcome = .ok receipt
  receipt : ∀ receipt, outcome = .ok receipt → r.field? "tx_id" = some (.int receipt.tx) ∧
    r.field? "atom_count" = some (.int receipt.count) ∧
    ∃ entries, List.Forall₂ (GivenAs around) receipt.given entries ∧
      r.field? "tempids" = some (.object entries)
  failed : ∀ fault, outcome = .error fault → Reports r fault

theorem jsonOfCell_shown (cell : Option Value) : ShownAs cell (jsonOfCell cell) := by
  match cell with
  | none => exact .nothing
  | some (.text s) => exact .text s
  | some (.int n) => exact .int n
  | some (.float x) =>
    show ShownAs _ (if x.isFinite then .float x else .null)
    split
    next finite => exact .float finite
    next infinite => exact .notFinite (Bool.eq_false_iff.mpr infinite)
  | some (.bool b) => exact .bool b
  | some (.bytes bs) => exact .bytes bs
  | some (.ref e) => exact .ref e

theorem jsonOfGiven_given (around : Surroundings) (given : List (Placeholder × EntityId)) :
    ∃ entries, List.Forall₂ (GivenAs around) given entries ∧
      jsonOfGiven around given = .object entries := by
  refine ⟨_, ?_, rfl⟩
  rw [List.forall₂_map_right_iff, List.forall₂_same]
  rintro ⟨p, e⟩ _
  cases p with
  | token s => exact .token s e
  | unnamed n => exact .unnamed n e

theorem statusOf_eq (fault : Fault) : statusOf fault =
    if fault.kind ∈ [.parse, .unknownIdentity, .unsupportedReference, .unsupportedValue] then 400
    else 500 := by
  unfold statusOf
  cases fault.kind <;> rfl

theorem statusOf_ne_ok (fault : Fault) : statusOf fault ≠ 200 := by
  rw [statusOf_eq]
  split <;> simp

theorem queryResponse_answers (id : Nat) (outcome : Except Fault (Option (List Query.AnswerRow))) :
    AnswersQuery (queryResponse id outcome) id outcome := by
  cases outcome with
  | error fault =>
    constructor
    case id => rfl
    case status => simp [queryResponse, statusOf_ne_ok]
    case rows => nofun
    case noRows => nofun
    case failed =>
      rintro _ ⟨⟩
      exact ⟨statusOf_eq fault, rfl⟩
  | ok answer =>
    constructor
    case id => cases answer <;> rfl
    case status => cases answer <;> simp [queryResponse]
    case rows =>
      rintro rows ⟨⟩
      refine ⟨rows.map (List.map jsonOfCell), ?_, ?_, rfl⟩
      · simp only [List.forall₂_map_right_iff, List.forall₂_same]
        exact fun _ _ cell _ => jsonOfCell_shown cell
      · rw [List.map_map]
        rfl
    case noRows =>
      rintro ⟨⟩
      exact ⟨rfl, rfl⟩
    case failed => nofun

theorem transactResponse_answers (around : Surroundings) (id : Nat)
    (outcome : Except Fault Receipt) :
    AnswersTransact around (transactResponse around id outcome) id outcome := by
  cases outcome with
  | error fault =>
    constructor
    case id => rfl
    case status => simp [transactResponse, statusOf_ne_ok]
    case receipt => nofun
    case failed =>
      rintro _ ⟨⟩
      exact ⟨statusOf_eq fault, rfl⟩
  | ok receipt =>
    constructor
    case id => rfl
    case status => simp [transactResponse]
    case receipt =>
      rintro receipt ⟨⟩
      obtain ⟨entries, given, same⟩ := jsonOfGiven_given around receipt.given
      exact ⟨rfl, rfl, entries, given, congrArg some same⟩
    case failed => nofun

/-! ### What requests ask for -/

/-- A request that posts a JSON text of at most 2 MiB to a path. -/
structure Request.Posts (r : Request) (path : String) : Prop where
  method : r.method = "POST"
  path : (splitTarget r.target).1 = path
  mediaType : ∃ type, r.mediaType = some type ∧ MediaType.isJson type = true
  short : r.body.utf8ByteSize ≤ 2 * 1024 * 1024

/-- A request that is accepted, and what it asks of the database. -/
inductive Request.Asks (r : Request) : Task → Prop where
  | query {body : Body.QueryBody} (posts : r.Posts "/v1/query")
      (told : Body.SaysQuery (Json.Outline.ofText r.body) body) : r.Asks (.query body)
  | transact {text : String} (posts : r.Posts "/v1/transact")
      (told : Body.SaysTransact (Json.Outline.ofText r.body) text) : r.Asks (.transact text)

theorem Route.ofPath?_eq_some {path : String} {route : Route} :
    Route.ofPath? path = some route ↔ route.path = path := by
  constructor
  · intro found
    have matched := List.find?_some found
    simpa using matched
  · rintro rfl
    cases route <;> rfl

variable {s : Service} {around : Surroundings} {r : Request}

theorem outlineOf_eq_ok {o : Json.Outline} : outlineOf r = .ok o ↔
    (∃ type, r.mediaType = some type ∧ MediaType.isJson type = true) ∧
      r.body.utf8ByteSize ≤ maxBodySize ∧ Json.Outline.ofText r.body = o := by
  have json : r.mediaType.any MediaType.isJson = true ↔
      ∃ type, r.mediaType = some type ∧ MediaType.isJson type = true := by
    cases r.mediaType <;> simp
  rw [← json]
  unfold outlineOf
  split
  next other => simp_all
  next json =>
    split
    next long => simp [Nat.not_le.mpr long]
    next short => simp_all

namespace Request

theorem posts_of_outlineOf {path : String} {o : Json.Outline} (posted : r.method = "POST")
    (at_ : (splitTarget r.target).1 = path) (ok : outlineOf r = .ok o) :
    r.Posts path ∧ Json.Outline.ofText r.body = o := by
  obtain ⟨json, short, same⟩ := outlineOf_eq_ok.mp ok
  exact ⟨⟨posted, at_, json, short⟩, same⟩

theorem Posts.query_eq {path : String} {body : Body.QueryBody} (posts : r.Posts path)
    (told : Body.SaysQuery (Json.Outline.ofText r.body) body) :
    (outlineOf r >>= Body.query) = .ok body := by
  rw [outlineOf_eq_ok.mpr ⟨posts.mediaType, posts.short, rfl⟩]
  exact Body.query_eq_ok.mpr told

theorem Posts.transact_eq {path : String} {text : String} (posts : r.Posts path)
    (told : Body.SaysTransact (Json.Outline.ofText r.body) text) :
    (outlineOf r >>= Body.transact) = .ok text := by
  rw [outlineOf_eq_ok.mpr ⟨posts.mediaType, posts.short, rfl⟩]
  exact Body.transact_eq_ok.mpr told

theorem asks_query {body : Body.QueryBody} (posted : r.method = "POST")
    (found : Route.ofPath? (splitTarget r.target).1 = some .query)
    (read : (outlineOf r >>= Body.query) = .ok body) : r.Asks (.query body) := by
  obtain ⟨o, ok, told⟩ := Outcome.bind_eq_ok.mp read
  obtain ⟨posts, rfl⟩ := posts_of_outlineOf posted (Route.ofPath?_eq_some.mp found).symm ok
  exact .query posts (Body.query_eq_ok.mp told)

theorem asks_transact {text : String} (posted : r.method = "POST")
    (found : Route.ofPath? (splitTarget r.target).1 = some .transact)
    (read : (outlineOf r >>= Body.transact) = .ok text) : r.Asks (.transact text) := by
  obtain ⟨o, ok, told⟩ := Outcome.bind_eq_ok.mp read
  obtain ⟨posts, rfl⟩ := posts_of_outlineOf posted (Route.ofPath?_eq_some.mp found).symm ok
  exact .transact posts (Body.transact_eq_ok.mp told)

/-- What a request asks for is what is read of it. -/
theorem task?_eq_some {task : Task} : r.task? = some task ↔ r.Asks task := by
  constructor
  · intro asked
    unfold task? at asked
    split at asked
    next posted =>
      split at asked
      next found =>
        obtain ⟨body, read, rfl⟩ := Option.map_eq_some_iff.mp asked
        exact asks_query posted found (Outcome.toOption_eq_some.mp read)
      next found =>
        obtain ⟨text, read, rfl⟩ := Option.map_eq_some_iff.mp asked
        exact asks_transact posted found (Outcome.toOption_eq_some.mp read)
      next => cases asked
    next => cases asked
  · rintro (⟨posts, told⟩ | ⟨posts, told⟩)
    · rw [task?, if_pos posts.method, posts.path, posts.query_eq told]
      rfl
    · rw [task?, if_pos posts.method, posts.path, posts.transact_eq told]
      rfl

/-- A request asks for one thing only. -/
theorem Asks.unique {task other : Task} (asks : r.Asks task) (also : r.Asks other) :
    task = other :=
  Option.some.inj ((task?_eq_some.mpr asks).symm.trans (task?_eq_some.mpr also))

theorem task?_eq_none : r.task? = none ↔ ∀ task, ¬ r.Asks task := by
  simp only [← task?_eq_some, Option.eq_none_iff_forall_ne_some]

end Request

/-! ### One request -/

/-- A request that reaches its route without being accepted is answered without a number, and
changes nothing. -/
theorem serve_unasked {route : Route} (found : Route.ofPath? (splitTarget r.target).1 = some route)
    (taken : route.takes r.method = true) (unasked : ∀ task, ¬ r.Asks task)
    (queryString : String) :
    (s.serve around route queryString r).1.field? "id" = none ∧
      (s.serve around route queryString r).2 = s := by
  cases route with
  | query =>
    -- the route and the method are right, so it is the body that cannot be read
    simp only [serve, runQuery]
    cases read : outlineOf r >>= Body.query with
    | error rejection => exact ⟨rfl, rfl⟩
    | ok body => exact absurd (Request.asks_query (beq_iff_eq.mp taken) found read) (unasked _)
  | transact =>
    simp only [serve, runTransact]
    cases read : outlineOf r >>= Body.transact with
    | error rejection => exact ⟨rfl, rfl⟩
    | ok text => exact absurd (Request.asks_transact (beq_iff_eq.mp taken) found read) (unasked _)
  | stats => exact ⟨rfl, rfl⟩
  | identities => exact ⟨rfl, rfl⟩
  | atoms =>
    refine ⟨?_, rfl⟩
    simp only [serve, atoms]
    split
    · rfl
    · split <;> rfl

/-- A request that is not accepted has no number and leaves the service as it is. -/
theorem handle_unasked (s : Service) (around : Surroundings) (unasked : ∀ task, ¬ r.Asks task) :
    (s.handle around r).1.field? "id" = none ∧ (s.handle around r).2 = s := by
  unfold handle
  dsimp only
  split
  · exact ⟨rfl, rfl⟩
  · cases found : Route.ofPath? (splitTarget r.target).1 with
    | none => exact ⟨rfl, rfl⟩
    | some route =>
      dsimp only
      split
      next taken =>
        obtain ⟨unnumbered, same⟩ := serve_unasked found taken unasked _
        refine ⟨?_, same⟩
        split
        · rfl
        · exact unnumbered
      next => exact ⟨rfl, rfl⟩

theorem handle_posted {path : String} {route : Route} (posts : r.Posts path)
    (found : Route.ofPath? path = some route) (taken : route.takes "POST" = true) :
    s.handle around r = s.serve around route (splitTarget r.target).2 r := by
  simp [handle, posts.method, posts.path, found, taken]

/-- A query that is accepted gets the next number and the answer of the database. -/
theorem handle_query {body : Body.QueryBody} (asks : r.Asks (.query body)) :
    s.handle around r =
      (queryResponse (s.issued + 1)
        (s.database.queryText body.query body.asOf (body.params.map Json.toForm)),
       ⟨s.database, s.issued + 1⟩) := by
  cases asks with
  | query posts told =>
    rw [handle_posted posts rfl rfl, serve, runQuery, posts.query_eq told]
    rfl

/-- A transaction that is accepted gets the next number and the receipt of the database, if it is
carried out. -/
theorem handle_transact {text : String} (asks : r.Asks (.transact text)) :
    s.handle around r =
      (transactResponse around (s.issued + 1)
        ((s.database.transactText around.now text).map Prod.fst),
       ⟨s.database.afterText around.now text, s.issued + 1⟩) := by
  cases asks with
  | transact posts told =>
    rw [handle_posted posts rfl rfl, serve, runTransact, posts.transact_eq told, Database.afterText]
    dsimp only [issue]
    cases s.database.transactText around.now text with
    | ok result => rfl
    | error fault => rfl

/-! ### Runs of requests -/

/-- Responses to requests, as calls of the database give them: each call is made on what the calls
before it have left behind, and gets the number after the last one issued. -/
inductive Served : Database → Nat → List Arrival → List Response → Prop where
  | done (db : Database) (issued : Nat) : Served db issued [] []
  | unasked {db : Database} {issued : Nat} {a : Arrival} {rest : List Arrival}
      {response : Response} {responses : List Response} (unasked : ∀ task, ¬ a.request.Asks task)
      (unnumbered : response.field? "id" = none) (others : Served db issued rest responses) :
      Served db issued (a :: rest) (response :: responses)
  | query {db : Database} {issued : Nat} {a : Arrival} {rest : List Arrival}
      {response : Response} {responses : List Response} {body : Body.QueryBody}
      (asks : a.request.Asks (.query body))
      (answer : AnswersQuery response (issued + 1)
        (db.queryText body.query body.asOf (body.params.map Json.toForm)))
      (others : Served db (issued + 1) rest responses) :
      Served db issued (a :: rest) (response :: responses)
  | transact {db : Database} {issued : Nat} {a : Arrival} {rest : List Arrival}
      {response : Response} {responses : List Response} {text : String}
      (asks : a.request.Asks (.transact text))
      (answer : AnswersTransact a.around response (issued + 1)
        ((db.transactText a.around.now text).map Prod.fst))
      (unchanged : response.status ≠ 200 → db.afterText a.around.now text = db)
      (others : Served (db.afterText a.around.now text) (issued + 1) rest responses) :
      Served db issued (a :: rest) (response :: responses)

section Served

variable {db : Database} {issued : Nat} {a : Arrival} {rest : List Arrival}
  {responses : List Response}

/-- The first response is to the first request. -/
theorem Served.unasked_inv (served : Served db issued (a :: rest) responses)
    (unasked : ∀ task, ¬ a.request.Asks task) : ∃ response others, responses = response :: others ∧
      response.field? "id" = none ∧ Served db issued rest others := by
  cases served with
  | unasked _ unnumbered others => exact ⟨_, _, rfl, unnumbered, others⟩
  | query asks => exact absurd asks (unasked _)
  | transact asks => exact absurd asks (unasked _)

theorem Served.query_inv {body : Body.QueryBody} (served : Served db issued (a :: rest) responses)
    (asks : a.request.Asks (.query body)) : ∃ response others, responses = response :: others ∧
      AnswersQuery response (issued + 1)
        (db.queryText body.query body.asOf (body.params.map Json.toForm)) ∧
      Served db (issued + 1) rest others := by
  cases served with
  | unasked unasked => exact absurd asks (unasked _)
  | query same answer others =>
    cases same.unique asks
    exact ⟨_, _, rfl, answer, others⟩
  | transact other => cases other.unique asks

theorem Served.transact_inv {text : String} (served : Served db issued (a :: rest) responses)
    (asks : a.request.Asks (.transact text)) : ∃ response others, responses = response :: others ∧
      AnswersTransact a.around response (issued + 1)
        ((db.transactText a.around.now text).map Prod.fst) ∧
      Served (db.afterText a.around.now text) (issued + 1) rest others := by
  cases served with
  | unasked unasked => exact absurd asks (unasked _)
  | query other => cases other.unique asks
  | transact same answer _ others =>
    cases same.unique asks
    exact ⟨_, _, rfl, answer, others⟩

end Served

@[simp] theorem handleAll_nil (s : Service) : s.handleAll [] = ([], s) := rfl

@[simp] theorem handleAll_cons (s : Service) (a : Arrival) (rest : List Arrival) :
    s.handleAll (a :: rest) =
      ((s.handle a.around a.request).1 :: ((s.handle a.around a.request).2.handleAll rest).1,
        ((s.handle a.around a.request).2.handleAll rest).2) := rfl

/-- A service answers requests as its database answers the calls they ask for. -/
theorem handleAll_served (s : Service) (arrivals : List Arrival) :
    Served s.database s.issued arrivals (s.handleAll arrivals).1 := by
  -- each request hands on the service that the next one is served by
  induction arrivals generalizing s with
  | nil => exact .done s.database s.issued
  | cons a rest ih =>
    have others := ih (s.handle a.around a.request).2
    rw [handleAll_cons]
    cases asked : a.request.task? with
    | none =>
      have unasked := Request.task?_eq_none.mp asked
      obtain ⟨unnumbered, same⟩ := handle_unasked s a.around unasked
      rw [same] at others ⊢
      exact .unasked unasked unnumbered others
    | some task =>
      have asks := Request.task?_eq_some.mp asked
      cases task with
      | query body =>
        rw [handle_query asks] at others ⊢
        exact .query asks (queryResponse_answers _ _) others
      | transact text =>
        rw [handle_transact asks] at others ⊢
        have answer := transactResponse_answers a.around (s.issued + 1)
          ((s.database.transactText a.around.now text).map Prod.fst)
        refine .transact asks answer ?_ others
        intro failed
        unfold Database.afterText
        cases done : s.database.transactText a.around.now text with
        | error fault => rfl
        | ok result =>
          -- a transaction that is carried out is answered with the status 200
          rw [done] at answer failed
          exact absurd (answer.status.mpr ⟨result.1, rfl⟩) failed

/-- The numbers of the responses follow one another. -/
theorem Served.ids {db : Database} {issued : Nat} {arrivals : List Arrival}
    {responses : List Response} (served : Served db issued arrivals responses) :
    responses.filterMap (·.field? "id")
      = (List.range' (issued + 1) (tasks arrivals).length).map fun id => .int id := by
  -- a response has a number exactly when its request is a task, and takes the next one
  induction served with
  | done db issued => rfl
  | unasked unasked unnumbered _ ih =>
    simpa [tasks, Request.task?_eq_none.mpr unasked, unnumbered] using ih
  | query asks answer _ ih =>
    simpa [tasks, Request.task?_eq_some.mpr asks, answer.id, List.range'_succ] using ih
  | transact asks answer _ _ ih =>
    simpa [tasks, Request.task?_eq_some.mpr asks, answer.id, List.range'_succ] using ih

/-- What is left of a service after some requests: the database with the transactions among them,
and a number for each request that was accepted. -/
theorem handleAll_snd (s : Service) (arrivals : List Arrival) :
    (s.handleAll arrivals).2 =
      ⟨s.database.afterTexts (arrivals.filterMap Arrival.text?),
        s.issued + (tasks arrivals).length⟩ := by
  induction arrivals generalizing s with
  | nil => rfl
  | cons a rest ih =>
    rw [handleAll_cons]
    cases asked : a.request.task? with
    | none =>
      rw [(handle_unasked s a.around (Request.task?_eq_none.mp asked)).2, ih]
      simp [tasks, Arrival.text?, asked]
    | some task =>
      cases task with
      | query body =>
        rw [handle_query (Request.task?_eq_some.mp asked), ih]
        simp [tasks, Arrival.text?, asked, Nat.add_assoc, Nat.add_comm]
      | transact text =>
        rw [handle_transact (Request.task?_eq_some.mp asked), ih]
        simp [tasks, Arrival.text?, asked, Database.afterTexts, Nat.add_assoc, Nat.add_comm]

/-- A new service over a database answers requests as the calls they ask for are answered by the
database itself. The requests that are accepted are numbered from one, whether or not they then
fail, and no other request has a number. The database it ends with is the one that the transactions
lead to, one after another. -/
theorem handleAll_serves (db : Database) (arrivals : List Arrival) :
    let (responses, last) := (ofDatabase db).handleAll arrivals
    Served db 0 arrivals responses ∧
      (∀ a ∈ arrivals, ∀ task, a.request.task? = some task ↔ a.request.Asks task) ∧
      responses.filterMap (·.field? "id")
        = ((List.range' 1 (tasks arrivals).length).map fun id => .int id) ∧
      last.issued = (tasks arrivals).length ∧
      last.database = db.afterTexts (arrivals.filterMap Arrival.text?) := by
  have served := handleAll_served (ofDatabase db) arrivals
  have left := handleAll_snd (ofDatabase db) arrivals
  refine ⟨served, fun a _ task => Request.task?_eq_some, served.ids, ?_, ?_⟩
  · rw [left, ofDatabase, Nat.zero_add]
  · rw [left, ofDatabase]

/-- A request that comes at the time 5. -/
def Arrival.sent (method path mediaType body : String) : Arrival :=
  ⟨⟨method, path, some mediaType, body⟩, ⟨5, fun _ => ""⟩⟩

/-- A JSON text that is posted to a path. -/
def Arrival.json (path body : String) : Arrival := sent "POST" path "application/json" body

theorem Arrival.posts_json {path body : String} (at_ : (splitTarget path).1 = path)
    (short : body.utf8ByteSize ≤ 2 * 1024 * 1024) : (json path body).request.Posts path :=
  ⟨rfl, at_, ⟨_, rfl, by decide +kernel⟩, short⟩

/-- The request that documents a new entity. -/
def alienRequest : String :=
  "\x7b:tx-data \x7b:db/e \"alien\" :db/documentation \"Alien\"\x7d\x7d"

def alienBody : String :=
  "\x7b\"tx\":\"\x7b:tx-data \x7b:db/e \\\"alien\\\" :db/documentation \\\"Alien\\\"\x7d\x7d\"\x7d"

/-- The query for what a value is said of, and under which attribute. -/
def valueQuery : String := "\x7b:find [?e ?a] :in [?value] :where [[?e ?a ?value]]\x7d"

def valueBody : String :=
  "\x7b\"query\":\"\x7b:find [?e ?a] :in [?value] :where [[?e ?a ?value]]\x7d\",\"params\":[\"Alien\"]\x7d"

/-- A query with an attribute that is not known. -/
def titleQuery : String := "\x7b:find [?title] :where [[?e :title ?title]]\x7d"

def titleBody : String :=
  "\x7b\"query\":\"\x7b:find [?title] :where [[?e :title ?title]]\x7d\"\x7d"

theorem saysQuery_valueBody :
    Body.SaysQuery (Json.Outline.ofText valueBody) ⟨valueQuery, none, [.text "Alien"]⟩ :=
  Body.query_eq_ok.mp (by cbv)

theorem saysQuery_titleBody :
    Body.SaysQuery (Json.Outline.ofText titleBody) ⟨titleQuery, none, []⟩ :=
  Body.query_eq_ok.mp (by cbv)

/-- The entity and the text that an answer shows in its only row. -/
def onlyRow? : Option (List Query.AnswerRow) → Option (EntityId × String)
  | some [[some (.ref e), some (.text s)]] => some (e, s)
  | _ => none

theorem eq_of_onlyRow? {answer : Option (List Query.AnswerRow)} {e : EntityId} {s : String}
    (only : onlyRow? answer = some (e, s)) : answer = some [[some (.ref e), some (.text s)]] := by
  unfold onlyRow? at only
  split at only
  next =>
    obtain ⟨rfl, rfl⟩ := Prod.mk.inj (Option.some.inj only)
    rfl
  next => cases only

/-- What they ask of a new table, when it is asked directly. -/
theorem exists_alien : ∃ db receipt after fault,
    Database.ofStore (Store.empty .table) .standard ⟨"", 0, 0, 0⟩ = .ok db ∧
      db.transactText 5 alienRequest = .ok (receipt, after) ∧
      receipt.given = [(.token "alien", 44)] ∧
      after.queryText valueQuery none [.text "Alien"]
        = .ok (some [[some (.ref 44), some (.text ":db/documentation")]]) ∧
      after.queryText titleQuery none [] = .error fault ∧
      fault.kind = .unknownIdentity ∧ fault.message = "Unknown identity: :title" := by
  have computed : ((Database.ofStore (Store.empty .table) .standard ⟨"", 0, 0, 0⟩).toOption.bind
      fun db => (db.transactText 5 alienRequest).toOption.bind fun result =>
        (result.2.queryText valueQuery none [.text "Alien"]).toOption.map fun answer =>
          (result.1.given, onlyRow? answer,
            ((result.2.queryText titleQuery none []).mapError
              fun fault => (fault.kind, fault.message)).map fun _ => ()))
        = some ([(.token "alien", 44)], some (44, ":db/documentation"),
          .error (.unknownIdentity, "Unknown identity: :title")) := by
    -- a record of retractions is a hash map, which does not compute here
    unfold Database.queryText Database.query Store.answer
    delta Query.rows
    rw [Fact.standing_eq]
    decide +kernel
  obtain ⟨db, opened, computed⟩ := Option.bind_eq_some_iff.mp computed
  obtain ⟨⟨receipt, after⟩, carried, computed⟩ := Option.bind_eq_some_iff.mp computed
  obtain ⟨answer, answered, computed⟩ := Option.map_eq_some_iff.mp computed
  simp only [Prod.mk.injEq] at computed
  obtain ⟨given, only, failed⟩ := computed
  obtain rfl := eq_of_onlyRow? only
  cases asked : after.queryText titleQuery none [] with
  | ok answer =>
    rw [asked] at failed
    cases failed
  | error fault =>
    rw [asked] at failed
    obtain ⟨kind, message⟩ := Prod.mk.inj (Except.error.inj failed)
    exact ⟨db, receipt, after, fault, Outcome.toOption_eq_some.mp opened,
      Outcome.toOption_eq_some.mp carried, given, Outcome.toOption_eq_some.mp answered, asked, kind,
      message⟩

/-- The text is posted, and then asked for; what is asked last is not known. Of the two requests in
between, one is not posted and the other is not JSON. -/
def alienArrivals : List Arrival :=
  [.json "/v1/transact" alienBody, .sent "GET" "/v1/query" "application/json" valueBody,
    .sent "POST" "/v1/query" "text/plain" valueBody, .json "/v1/query" valueBody,
    .json "/v1/query" titleBody]

/-- A new table takes the text and shows it. The requests that are not accepted have no number. -/
theorem handleAll_serves_alien :
    ∃ db sent unposted misread replied failed last,
      Database.ofStore (Store.empty .table) .standard ⟨"", 0, 0, 0⟩ = .ok db ∧
      (ofDatabase db).handleAll alienArrivals
        = ([sent, unposted, misread, replied, failed], last) ∧
      sent.status = 200 ∧ sent.field? "id" = some (.int 1) ∧
      sent.field? "tempids" = some (.object [("alien", .int 44)]) ∧
      unposted.field? "id" = none ∧ misread.field? "id" = none ∧
      replied.status = 200 ∧ replied.field? "id" = some (.int 2) ∧
      replied.field? "row_count" = some (.int 1) ∧
      replied.field? "rows" = some (.list [.list [.int 44, .text ":db/documentation"]]) ∧
      failed.status = 400 ∧ failed.field? "id" = some (.int 3) ∧
      failed.field? "error" = some (.text "Unknown identity: :title") := by
  obtain ⟨db, receipt, after, fault, opened, carried, given, answered, unknown, kind, message⟩ :=
    exists_alien
  have sends : (Arrival.json "/v1/transact" alienBody).request.Asks (.transact alienRequest) :=
    .transact (Arrival.posts_json (by decide +kernel) (by decide +kernel))
      (Body.transact_eq_ok.mp (Outcome.toOption_eq_some.mp (by decide +kernel)))
  have not_posted : ∀ task,
      ¬ (Arrival.sent "GET" "/v1/query" "application/json" valueBody).request.Asks task := by
    rintro _ (⟨posts, _⟩ | ⟨posts, _⟩)
    all_goals exact absurd posts.method (by decide)
  have not_json : ∀ task,
      ¬ (Arrival.sent "POST" "/v1/query" "text/plain" valueBody).request.Asks task := by
    have plain : ¬ ∃ type, some "text/plain" = some type ∧ MediaType.isJson type = true := by
      rintro ⟨_, ⟨⟩, json⟩
      exact absurd json (by decide +kernel)
    rintro _ (⟨posts, _⟩ | ⟨posts, _⟩)
    all_goals exact plain posts.mediaType
  have asks : (Arrival.json "/v1/query" valueBody).request.Asks
      (.query ⟨valueQuery, none, [.text "Alien"]⟩) :=
    .query (Arrival.posts_json (by decide +kernel) (by decide +kernel)) saysQuery_valueBody
  have asks' : (Arrival.json "/v1/query" titleBody).request.Asks (.query ⟨titleQuery, none, []⟩) :=
    .query (Arrival.posts_json (by decide +kernel) (by decide +kernel)) saysQuery_titleBody
  rcases handled : (ofDatabase db).handleAll alienArrivals with ⟨responses, last⟩
  have serves := handleAll_serves db alienArrivals
  rw [handled] at serves
  obtain ⟨served, -⟩ := serves
  obtain ⟨sent, _, rfl, receives, served⟩ := served.transact_inv sends
  obtain ⟨unposted, _, rfl, unnumbered, served⟩ := served.unasked_inv not_posted
  obtain ⟨misread, _, rfl, unnumbered', served⟩ := served.unasked_inv not_json
  obtain ⟨replied, _, rfl, answers, served⟩ := served.query_inv asks
  obtain ⟨failed, _, rfl, fails, ⟨⟩⟩ := served.query_inv asks'
  have receipt_ok : (db.transactText 5 alienRequest).map Prod.fst = .ok receipt := by
    rw [carried]
    rfl
  have left : db.afterText 5 alienRequest = after := by
    rw [Database.afterText, carried]
  have rows_ok : (db.afterText 5 alienRequest).queryText valueQuery none [.text "Alien"]
      = .ok (some [[some (.ref 44), some (.text ":db/documentation")]]) := left ▸ answered
  obtain ⟨_, _, entries, tokens, tempids⟩ := receives.receipt receipt receipt_ok
  rw [given] at tokens
  obtain _ | ⟨⟨⟩, ⟨⟩⟩ := tokens
  obtain ⟨shown, related, rows, count⟩ := answers.rows _ rows_ok
  obtain _ | ⟨_ | ⟨⟨⟩, _ | ⟨⟨⟩, ⟨⟩⟩⟩, ⟨⟩⟩ := related
  obtain ⟨status, error⟩ := fails.failed fault (left ▸ unknown)
  rw [kind] at status
  rw [message] at error
  exact ⟨db, sent, unposted, misread, replied, failed, last, opened, handled,
    receives.status.mpr ⟨receipt, receipt_ok⟩, receives.id, tempids, unnumbered, unnumbered',
    answers.status.mpr ⟨_, rows_ok⟩, answers.id, count, rows, status, fails.id, error⟩

end Factbase.Service
