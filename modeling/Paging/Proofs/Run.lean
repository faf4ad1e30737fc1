import Paging.Paginator

/-! Runs of a paginator: inquiries, the passing of time and clears, one after another. Beside the
answers of a run stand those that the executors alone would give. -/
namespace Paging

def Executor.run (ex : Executor) (q : Query) (fields : List Text) :
    Except ExecutionError (List Row × Int) := do
  let n ← ex.count q
  let items ← ex.fetch q fields
  return (items, n)

def Answer.pageOf (cfg : Config) (d : Descriptor) (q : Query) :
    Except ExecutionError (List Row × Int) → Except RequestError Page
  | .ok (items, total) => .ok (Page.build items total q d)
  | .error (.refused message _) => .ok (Page.buildError message q d cfg.errorEnabled)
  | .error e => .error (.execution e)

namespace Paginator

namespace Inquiry

variable (cfg : Config) (i : Inquiry)

def config : Config := cfg.resolve i.executor.dialect

def descriptor : Descriptor := Descriptor.ofRequest (i.config cfg) i.request

def fields : List Text :=
  FieldList.select (i.descriptor cfg).fields i.allowed (i.config cfg).fieldSelector

def query : Except Text.TemplateError Query := Query.ofDescriptor (i.config cfg) (i.descriptor cfg)

def pageKey : String := Cache.pageKey i.label (i.descriptor cfg) (i.fields cfg)

/-- The answer to an inquiry without a cache. -/
def uncached : Except RequestError Page :=
  match i.query cfg with
  | .error e => .error (.template e)
  | .ok q => Answer.pageOf (i.config cfg) (i.descriptor cfg) q (i.executor.run q (i.fields cfg))

variable {cfg i}

theorem uncached_eq {q : Query} (hq : i.query cfg = .ok q) :
    i.uncached cfg =
      Answer.pageOf (i.config cfg) (i.descriptor cfg) q (i.executor.run q (i.fields cfg)) := by
  rw [uncached, hq]

end Inquiry

/-- What happens to a paginator. -/
inductive Step
  | respond (i : Inquiry)
  | advance (seconds : Int)
  /-- Forget labels, at once or at the next drain. -/
  | clear (labels : List String) (now : Bool)
  | clearAll (now : Bool)
  | drain

def advance (p : Paginator) (seconds : Int) : Paginator :=
  { p with cache := { p.cache with
      adapter := p.cache.adapter.map fun a => { a with store := a.store.advance seconds } } }

def forget (p : Paginator) (cs : List Clear) (now : Bool) : Paginator :=
  if now then p.perform cs else p.schedule cs

def step (p : Paginator) : Step → Paginator
  | .respond i => (p.respond i).2
  | .advance seconds => p.advance seconds
  | .clear labels now => p.forget (p.clears labels) now
  | .clearAll now => p.forget p.clearsAll now
  | .drain => p.drain

def inquiries : List Step → List Inquiry
  | [] => []
  | .respond i :: steps => i :: inquiries steps
  | _ :: steps => inquiries steps

def answers (p : Paginator) : List Step → List (Except RequestError Page)
  | [] => []
  | .respond i :: steps => (p.respond i).1.page :: (p.step (.respond i)).answers steps
  | s :: steps => (p.step s).answers steps

end Paginator

/-! ### What an answer comes from -/

theorem Outcome.rows_result {cfg : Config} {ex : Executor} {q : Query} (fields : List Text)
    {g : Cache.Gateway} (h : (total cfg ex q g).result = ex.count q) :
    (rows cfg ex q fields g).result = ex.run q fields := by
  rw [rows, Executor.run, h]
  cases ex.count q with
  | error e => rfl
  | ok n => cases ex.fetch q fields <;> rfl

theorem Answer.ofQuery_page (cfg : Config) (ex : Executor) (d : Descriptor) (q : Query)
    (fields : List Text) (key : String) (g : Cache.Gateway) :
    (ofQuery cfg ex d q fields key g).page =
      pageOf cfg d q (Outcome.rows cfg ex q fields g).result := by
  rw [ofQuery]
  cases (Outcome.rows cfg ex q fields g).result with
  | ok r => rfl
  | error e => cases e <;> rfl

end Paging
