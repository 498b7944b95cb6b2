import TmsApi.Refinement.Faults
import TmsApi.Refinement.Runs

/-!
# Requests served at the same time

Concurrent requests are the programs of their handlers over one database.
Each awaited Prisma call is one step, an interactive transaction included, and
every request has a process state of its own.
-/

namespace TmsApi

open TmsApi.Core
open TmsApi.Core.Program

/-- Authenticated requests in flight, one for each index. -/
structure Concurrent (ι : Type) where
  host : ι → Host
  caller : ι → JwtPayload
  call : ι → Call

/-- The requests before their first statement. -/
def Concurrent.pool {ι : Type} (requests : Concurrent ι) (lib : Libs)
    (db : Db) : Pool Db Thrown Response ι where
  state := db
  threads i :=
    handle lib (requests.host i) (requests.caller i) (requests.call i)

/-- The answers of a finished pool. -/
theorem finished_of_answers {ι : Type}
    {last : Pool Db Thrown Response ι}
    (answered : ∀ i, ((last.threads i).result?).isSome) :
    last.Finished := by
  intro i
  rcases Option.isSome_iff_exists.mp (answered i) with ⟨result, same⟩
  exact ⟨result, result?_eq_some.mp same⟩

end TmsApi
