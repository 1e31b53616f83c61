import Ticketing.AppServer.Calls
import Ticketing.AppServer.SeatCalls

namespace Ticketing.AppServer

open Python Interaction TicketingApi Repository Commands
open Interaction.Program (Calls Sat)
open Storage (seatKey)

/-! ### Calls one after another -/

/-- A call that runs on its own, with what its steps meet. -/
structure Turn where
  call : AppCall
  env : Nat → Env

def Turn.after (w : World) (x : Turn) : World := (x.call.flow.run appStep w x.env).2

def Turn.events (w : World) (x : Turn) : List (Program.Event Env World AppOp) := x.call.flow.events appStep w x.env

/-- Every id of the call comes through the URL of the DB service as it is. -/
def Turn.Verbatim (w : World) (x : Turn) : Prop := ∀ ev ∈ x.events w, ev.op.Verbatim

instance (w : World) (x : Turn) : Decidable (x.Verbatim w) :=
  inferInstanceAs (Decidable (∀ ev ∈ x.events w, ev.op.Verbatim))

/-! ### Flows on their own -/

def Within (E : AppOp → Env → Prop) (w : World) (op : AppOp) (x : Except Error op.Res) (w' : World) : Prop :=
  ∃ env, E op env ∧ appStep env w op = (x, w')

/-- A flow whose steps meet environments in `E`: its steps satisfy `G`, and its end satisfies `post`. -/
abbrev Does {α : Type} (E : AppOp → Env → Prop) (G : World → AppOp → World → Prop)
    (post : Except Error α → World → Prop) (p : Flow α) (w : World) : Prop :=
  p.Sat Eq (Within E) G post w

variable {α β : Type} {E : AppOp → Env → Prop} {G : World → AppOp → World → Prop} {w : World}

theorem Does.run {p : Flow α} {post : Except Error α → World → Prop} (h : Does E G post p w) {env : Nat → Env}
    (hE : ∀ ev ∈ p.events appStep w env, E ev.op ev.env) : post (p.run appStep w env).1 (p.run appStep w env).2 ∧
      ∀ ev ∈ p.events appStep w env, G ev.before ev.op ev.after :=
  Sat.run h fun ev hev => ⟨ev.env, hE ev hev, rfl⟩

theorem Does.bind {p : Flow α} {f : α → Flow β} {P : Except Error α → World → Prop} {Q : Except Error β → World → Prop}
    (h : Does E G P p w) (hok : ∀ a w', P (.ok a) w' → Does E G Q (f a) w')
    (herr : ∀ e w', P (.error e) w' → Q (.error e) w') :
    Does E G Q (p >>= f) w :=
  Sat.bind (fun _ => rfl) h hok herr

theorem Does.tryCatch {p : Flow α} {f : Error → Flow α} {P Q : Except Error α → World → Prop} (h : Does E G P p w)
    (hok : ∀ a w', P (.ok a) w' → Q (.ok a) w') (herr : ∀ e w', P (.error e) w' → Does E G Q (f e) w') :
    Does E G Q (tryCatch p f) w :=
  Sat.tryCatch (fun _ => rfl) h hok herr

theorem does_ret {post : Except Error α → World → Prop} {a : α} (h : post (.ok a) w) : Does E G post (pure a) w := by
  rintro _ rfl
  exact h

theorem does_throw {post : Except Error α → World → Prop} {e : Error} (h : post (.error e) w) :
    Does E G post (throw e) w := by
  rintro _ rfl
  exact h

theorem does_ofExcept {post : Except Error α → World → Prop} {x : Except Error α} (h : post x w) :
    Does E G post (Program.ofExcept x) w := by
  cases x with
  | ok a => exact does_ret h
  | error e => exact does_throw h

theorem does_invoke {op : AppOp} {post : Except Error op.Res → World → Prop}
    (h : ∀ env, E op env → G w op (appStep env w op).2 ∧ post (appStep env w op).1 (appStep env w op).2) :
    Does E G post (Program.invoke op) w := by
  refine Sat.invoke ?_
  rintro _ rfl x w₂ ⟨env, henv, he⟩
  have hp := h env henv
  rw [he] at hp
  refine ⟨hp.1, ?_⟩
  rintro _ rfl
  exact hp.2

theorem does_uuid4 {post : Except Error String → World → Prop}
    (h : ∀ env, E .uuid4 env → G w .uuid4 w ∧ post (.ok env.uuid) w) : Does E G post Orchestrator.uuid4 w :=
  does_invoke h

theorem does_currentTime {post : Except Error ℚ → World → Prop}
    (h : ∀ env, E .now env → G w .now w ∧ post (.ok env.now) w) : Does E G post Orchestrator.currentTime w :=
  does_invoke h

theorem does_dbCall {call : DbCall} {post : Except Error call.Res → World → Prop}
    (h : ∀ env, E (.db call) env → G w (.db call) (appStep env w (.db call)).2 ∧
      post (appStep env w (.db call)).1 (appStep env w (.db call)).2) : Does E G post (Orchestrator.db call) w :=
  does_invoke h

theorem does_db {call : DbCall} (hE : ∀ env, E (.db call) env → env.fault = .none)
    {post : Except Error call.Res → World → Prop}
    (h : ∀ env, E (.db call) env → G w (.db call) { w with db := (dbStep env.now w.db call).2 } ∧
      post (dbStep env.now w.db call).1 { w with db := (dbStep env.now w.db call).2 }) :
    Does E G post (Orchestrator.db call) w := by
  refine does_dbCall fun env henv => ?_
  simp only [appStep, hE env henv, withFault]
  exact h env henv

section Redis

variable (hE : ∀ tokens env, E (.redis tokens) env → env.fault = .none)

include hE

theorem does_command {tokens : List String} {decode : Reply → Except Error α} {post : Except Error α → World → Prop}
    (h : ∀ env, E (.redis tokens) env → G w (.redis tokens) { w with redis := step w.redis (env.now, tokens) } ∧
      post ((redisReply tokens env.now w.redis).1 >>= decode) { w with redis := step w.redis (env.now, tokens) }) :
    Does E G post (Orchestrator.execute tokens >>= fun reply => Program.ofExcept (decode reply)) w := by
  rintro _ rfl x w₂ ⟨env, henv, he⟩
  simp only [appStep, hE tokens env henv, withFault] at he
  cases he
  refine ⟨(h env henv).1, ?_⟩
  have hp := (h env henv).2
  cases hr : (redisReply tokens env.now w.redis).1 with
  | error e =>
      rw [hr] at hp
      exact does_throw hp
  | ok reply =>
      rw [hr] at hp
      exact does_ofExcept hp

theorem does_seatStatus {e s : String} {post : Except Error SeatStatus → World → Prop}
    (h : ∀ env, E (.redis ["SEAT_STATUS", e, s]) env →
      G w (.redis ["SEAT_STATUS", e, s]) { w with redis := Storage.purge w.redis (seatKey e s) env.now } ∧
      post (reported w.redis e s env.now) { w with redis := Storage.purge w.redis (seatKey e s) env.now }) :
    Does E G post (Orchestrator.seatStatus e s) w := by
  refine does_command hE fun env henv => ?_
  have hs : step w.redis (env.now, ["SEAT_STATUS", e, s]) = Storage.purge w.redis (seatKey e s) env.now :=
    congrArg Prod.snd (Storage.seatStatusByKey_eq w.redis (seatKey e s) env.now)
  rw [hs]
  exact h env henv

end Redis

end Ticketing.AppServer
