import ReleaseFlow.Flow
import ReleaseFlow.Forge

/-!
# The hosting service as a service of flows

* `Forge.service`: questions about repositories;
* `Forge.query`, `Forge.tryQuery`: one question in a flow.
-/

namespace ReleaseFlow.Forge

/-- Questions about repositories. -/
abbrev service : Service where
  Query := Call
  Answer c := c.query.Answer

/-- Asks a question; a failure ends the flow. -/
def query (repository : Repository) (q : Query) : Flow service q.Answer :=
  @Flow.ask service ⟨repository, q⟩

/-- Asks a question; a failure is a value. -/
def tryQuery (repository : Repository) (q : Query) : Flow service (Except Failure q.Answer) :=
  @Flow.tryAsk service ⟨repository, q⟩

end ReleaseFlow.Forge
