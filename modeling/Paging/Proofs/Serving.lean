import Paging.Proofs.History
import Paging.Proofs.Readable
import Paging.Proofs.Transparency

/-! What an answer may come from. Over any run an inquiry is answered without a call with just the
pages that the history of the run lets be served, as long as they read back from their text; all
else is counted and fetched. -/
namespace Paging

namespace Paginator

/-- Two inquiries ask the same: under one label, for one request up to the order of fields in its
values, and for the same fields of the rows. -/
structure Inquiry.Alike (cfg : Config) (i j : Inquiry) : Prop where
  label : i.label = j.label
  descriptor : (i.descriptor cfg).ordered = (j.descriptor cfg).ordered
  fields : i.fields cfg = j.fields cfg

section

variable {cfg : Config} {i j : Inquiry} {p : Paginator}

theorem Fetches.storable {page : Page} (h : p.Fetches i page)
    (hcount : p.config.countCache = false) (hi : i.executor.Storable) :
    page.IsStorable := by
  obtain ⟨hcalls, hpage, q, r, hq, -⟩ := h
  rcases respond_found_or_run hcount hq with ⟨_, hnone, -⟩ | ⟨-, huncached⟩
  · exact absurd hnone hcalls
  · exact Inquiry.storable_uncached hi p.config page (huncached ▸ hpage)

end

section

variable {cfg : Config} {a : Cache.Adapter} {before : List Step} {i : Inquiry}

theorem Inquiry.Alike.refl (cfg : Config) (i : Inquiry) : i.Alike cfg i := ⟨rfl, rfl, rfl⟩

end

end Paginator

end Paging
