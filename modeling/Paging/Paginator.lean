import Paging.Cache.Gateway
import Paging.Cache.Key
import Paging.Config.Fields
import Paging.Executor
import Paging.FieldList

/-!
The paginator: request in, page out. A page comes from the cache if it is kept there under the
request's key, else the rows are counted and fetched; a failed query gives an empty page that is not
kept. Clearing the cache can be put off until the paginator is drained.
-/

namespace Paging

inductive RequestError
  /-- A template of the settings does not fit. -/
  | template (e : Text.TemplateError)
  /-- The executor failed otherwise than by the database's refusal. -/
  | execution (e : ExecutionError)

structure Answer where
  page : Except RequestError Page
  calls : List Call
  cache : Cache.Gateway

structure Outcome (α : Type) where
  result : Except ExecutionError α
  calls : List Call
  cache : Cache.Gateway

namespace Outcome

/-- The row count of a query: from the cache if it is kept there, else from the executor. -/
def total (cfg : Config) (ex : Executor) (q : Query) (g : Cache.Gateway) : Outcome Int :=
  if cfg.countCache && g.enabled then
    let key := Cache.countKey ex.name q
    match g.getCount key with
    | (some n, g) => ⟨.ok n, [], g⟩
    | (none, g) =>
      match ex.count q with
      | .ok n => ⟨.ok n, [.count q], g.storeCount key n⟩
      | .error e => ⟨.error e, [.count q], g⟩
  else ⟨ex.count q, [.count q], g⟩

def rows (cfg : Config) (ex : Executor) (q : Query) (fields : List Text) (g : Cache.Gateway) :
    Outcome (List Row × Int) :=
  let counted := total cfg ex q g
  match counted.result with
  | .error e => ⟨.error e, counted.calls, counted.cache⟩
  | .ok n =>
    { result := (ex.fetch q fields).map fun items => (items, n)
      calls := counted.calls ++ [.fetch q fields]
      cache := counted.cache.note (ex.remarks fields) }

end Outcome

namespace Answer

def ofQuery (cfg : Config) (ex : Executor) (d : Descriptor) (q : Query) (fields : List Text)
    (key : String) (g : Cache.Gateway) : Answer :=
  let run := Outcome.rows cfg ex q fields g
  match run.result with
  | .ok (items, total) =>
    let page := Page.build items total q d
    ⟨.ok page, run.calls, run.cache.storePage key page⟩
  | .error (.refused message _) =>
    { page := .ok (Page.buildError message q d cfg.errorEnabled)
      calls := run.calls
      cache := run.cache.note
        [⟨.error, Config.source, "Query on " ++ ex.name ++ " failed: " ++ message⟩] }
  | .error e => ⟨.error (.execution e), run.calls, run.cache⟩

def ofKey (cfg : Config) (ex : Executor) (d : Descriptor) (q : Query) (fields : List Text)
    (key : String) (g : Cache.Gateway) : Answer :=
  if g.enabled && !key.isEmpty then
    match g.getPage key with
    | (some page, g) => ⟨.ok page, [], g⟩
    | (none, g) => ofQuery cfg ex d q fields key g
  else ofQuery cfg ex d q fields key g

/-- The answer to a request, under settings that are already resolved. Pages are cached under
`label` unless it is empty, and the server allows the fields of `allowed`, or all if it is empty.
-/
def ofRequest (cfg : Config) (ex : Executor) (r : Request) (label : String)
    (allowed : List Text) (g : Cache.Gateway) : Answer :=
  let d := Descriptor.ofRequest cfg r
  let g := g.note (Descriptor.notices cfg r ++ Query.notices cfg d)
  match Query.ofDescriptor cfg d with
  | .error e => ⟨.error (.template e), [], g⟩
  | .ok q =>
    let fields := FieldList.select d.fields allowed cfg.fieldSelector
    ofKey cfg ex d q fields (Cache.pageKey label d fields) g

end Answer

inductive Clear
  | under (label : String)
  | all
  deriving DecidableEq

namespace Clear

def perform (g : Cache.Gateway) : Clear → Cache.Gateway
  | .under label => g.clearUnder label
  | .all => g.clearAll

end Clear

structure Paginator where
  config : Config := {}
  cache : Cache.Gateway := {}
  /-- The clears that wait for the next drain, in the order in which they were asked for. -/
  scheduled : List Clear := []

namespace Paginator

def ofConfig (cfg : Config) (adapter : Option Cache.Adapter) : Paginator where
  config := cfg
  cache := { adapter := adapter, ttl := cfg.cacheTtl }

/-- The paginator of the settings that a value gives. If they cannot be used, the defaults take
their place as a whole, so that there is no cache either. -/
def ofValue (v : Value) (adapter : Option Cache.Adapter) : Paginator :=
  match Config.ofValue v with
  | .ok cfg => ofConfig cfg adapter
  | .error notice => { cache := { log := [notice] } }

def paginate (p : Paginator) (ex : Executor) (r : Request) (label : String)
    (allowed : List Text) : Answer × Paginator :=
  let answer := Answer.ofRequest (p.config.resolve ex.dialect) ex r label allowed p.cache
  (answer, { p with cache := answer.cache })

/-- A request that is put together step by step before it is answered. -/
structure Inquiry where
  executor : Executor
  request : Request := .none
  label : String := ""
  allowed : List Text := []

namespace Inquiry

def ask (i : Inquiry) (r : Request) : Inquiry := { i with request := r }

def keepUnder (i : Inquiry) (label : String) : Inquiry := { i with label := label }

def allow (i : Inquiry) (fields : List Text) : Inquiry := { i with allowed := fields }

end Inquiry

def respond (p : Paginator) (i : Inquiry) : Answer × Paginator :=
  p.paginate i.executor i.request i.label i.allowed

@[simp] theorem respond_allow (p : Paginator) (i : Inquiry) (fields : List Text) :
    p.respond (i.allow fields) = p.paginate i.executor i.request i.label fields := rfl

/-- The clears that forgetting some labels takes; the empty label is passed over. -/
def clears (p : Paginator) (labels : List String) : List Clear :=
  if p.cache.enabled then (labels.filter fun l => !l.isEmpty).map .under else []

def clearsAll (p : Paginator) : List Clear :=
  if p.cache.enabled then [.all] else []

def schedule (p : Paginator) (cs : List Clear) : Paginator :=
  { p with scheduled := p.scheduled ++ cs }

def perform (p : Paginator) (cs : List Clear) : Paginator :=
  { p with cache := cs.foldl Clear.perform p.cache }

def drain (p : Paginator) : Paginator :=
  { p.perform p.scheduled with scheduled := [] }

end Paginator

end Paging
