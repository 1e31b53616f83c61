import Ticketing.Lib.Observed
import Ticketing.AppServer.SaleRuns

namespace Ticketing.AppServer

open Python Interaction
open Interaction.Program (Refines retried refines_retried)

/-! ### Commands that are sent again -/

/-- How the Redis client reports the exception that ends its attempts. -/
def redisFailed (e : Error) : Error :=
  match e.kind with
  | .osError => ⟨.upstreamError, "Redis connection failed: " ++ e.message⟩
  | .unicodeDecodeError => ⟨.upstreamError, "Redis returned non-UTF8 data"⟩
  | _ => e

/-- The attempts of the Redis client: a connection that breaks may have carried the command or not, and the command
is sent once more over a new one. -/
def resend : (op : AppOp) → Flow op.Res
  | .redis tokens => retried (fun e => e.kind = .osError) redisFailed (AppOp.redis tokens)
  | op => Program.invoke op

variable {C : World → AppOp → Prop} {w w' : World}

/-- A command that can fail can fail with any exception. -/
theorem appStep_fails {env : Env} {tokens : List String} {e : Error}
    (h : appStep env w (.redis tokens) = (.error e, w')) (e' : Error) :
    ∃ env', appStep env' w (.redis tokens) = (.error e', w') := by
  have hw : w' = (appStep env w (.redis tokens)).2 := by rw [h]
  rcases appStep_redis env w tokens with he | he
  · exact ⟨{ env with fault := .fail true e' }, by rw [hw, he]; rfl⟩
  · exact ⟨{ env with fault := .fail false e' }, by rw [hw, he]; rfl⟩

theorem steps_fail {tokens : List String} {e : Error} (h : Steps C w (.redis tokens) (.error e) w') (e' : Error) :
    Steps C w (.redis tokens) (.error e') w' := by
  obtain ⟨hC, env, henv⟩ := h
  exact ⟨hC, appStep_fails henv e'⟩

/-- The attempts meet what one attempt meets. -/
theorem refines_resend {rely : World → World → Prop} {guar : World → AppOp → World → Prop}
    (htrans : ∀ a b c, rely a b → rely b c → rely a c)
    (hguar : ∀ w op x w', Steps C w op x w' → guar w op w' → rely w w') (op : AppOp) :
    Refines rely (Steps C) guar op (resend op) := by
  cases op with
  | redis tokens => exact refines_retried htrans hguar (fun _ _ e' _ h => steps_fail h e') _ _
  | uuid4 => exact fun _ _ h => h
  | now => exact fun _ _ h => h
  | db call => exact fun _ _ h => h

/-- Calls that run at the same time and send their commands again. -/
def resending {ι : Type} (w : World) (calls : ι → AppCall) : Flows ι := ⟨w, fun i => (calls i).flow.expand resend⟩

end Ticketing.AppServer
