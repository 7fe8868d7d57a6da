import Quickspin.Refinement
import Quickspin.Endings
import Quickspin.Census

/-! The whole process over Docker: the HTTP server beside its reconciler. What the reconciler has the runtime do is a
program over the daemon, and the server answers in between; an operation on a container is one call, whatever it
answers. So the process refines the server over the census, and through it the control plane. -/
namespace Quickspin
open Interaction Service
set_option autoImplicit false

/-- A runtime with the operations on its containers, none of which makes or removes one. -/
def Backend.served {ρ : Type} (B : Backend Runtime.signature ρ) : Backend Runtime.methods ρ where
  act
    | .base c => B.act c
    | .operate _ => fun r _ r' => r' = r
  env := B.env

/-- To the control plane the operations are nothing. -/
theorem Backend.reconciled_served {ρ : Type} {B : Backend Runtime.signature ρ} (hrefl : ∀ r, B.env r r) :
    B.served.reconciled = B := by
  have henv : B.served.reconciled.env = B.env := by
    funext r r'
    refine propext ⟨?_, Or.inl⟩
    rintro (he | ⟨o, a, he⟩)
    · exact he
    · obtain rfl : r' = r := he
      exact hrefl r'
  exact congrArg (Backend.mk B.act) henv

namespace Docker

/-! ## The calls of the process -/

/-- `engine` is a call of the methods that the reconciler uses. -/
inductive ServedCall
  | engine (c : Docker.Call)
  | operate (o : Runtime.Operation)

abbrev ServedCall.Answer : ServedCall → Type
  | .engine c => c.Answer
  | .operate o => o.Answer

abbrev served : Signature := ⟨ServedCall, ServedCall.Answer⟩

/-- A call of a method, among those of the process. -/
def engineCalls : Embedding (calls signature) (calls served) where
  call
    | .now => .now
    | .newSandboxID => .newSandboxID
    | .store c => .store c
    | .backend c => .backend (.engine c)
    | .decide id action => .decide id action
  answer
    | .now, a | .newSandboxID, a | .store _, a | .backend _, a | .decide _ _, a => a

/-- How the process carries out the calls of the server. -/
def serve (host : Host) : (c : (calls Runtime.methods).Call) → Program (calls served) ((calls Runtime.methods).Answer c)
  | .now => now
  | .newSandboxID => newSandboxID
  | .store c => store c
  | .decide id action => decided id action
  | .backend (.base b) => (impl host (.backend b)).embed engineCalls
  | .backend (.operate o) => backend (D := served) (.operate o)

end Docker

def Backend.dockerServed : Backend Docker.served Daemon where
  act
    | .engine c => Daemon.act c
    | .operate _ => fun d _ d' => d' = d
  env := Daemon.Moves

/-- The server and the reconciler over the daemon. -/
def dockerServer (u : HttpApi.Unmarshal) (host : Docker.Host) :
    Service (calls Docker.served) (World Daemon) HttpApi.Request HttpApi.Reply (Except Err (List ReconcileAction)) :=
  Backend.dockerServed.service (fun i => (i.handle u).translate (Docker.serve host))
    (((Reconciler.reconcileOnce false).embed baseCalls).translate (Docker.serve host))

abbrev DockerServerConfig :=
  Config (calls Docker.served) (World Daemon) HttpApi.Request HttpApi.Reply (Except Err (List ReconcileAction))

abbrev DockerServerLabel :=
  Label (calls Docker.served) HttpApi.Request HttpApi.Reply (Except Err (List ReconcileAction))

namespace Docker

/-! ## The two levels -/

/-- What an operation on a container was, and answered. -/
abbrev Operated := Exchange ⟨Runtime.Operation, Runtime.Operation.Answer⟩

/-- What can be seen of a call from the store, the clients and the containers' insides. -/
def seenBelow : (c : (calls served).Call) → (calls served).Answer c → Option (Exchange (calls noRuntime) ⊕ Operated)
  | .store c, a => some (.inl ⟨.store c, a⟩)
  | .newSandboxID, id => some (.inl ⟨.newSandboxID, id⟩)
  | .decide id action, a => some (.inl ⟨.decide id action, a⟩)
  | .backend (.operate o), a => some (.inr ⟨o, a⟩)
  | .now, _ | .backend (.engine _), _ => none

def seenAbove : (c : (calls Runtime.methods).Call) → (calls Runtime.methods).Answer c →
    Option (Exchange (calls noRuntime) ⊕ Operated)
  | .store c, a => some (.inl ⟨.store c, a⟩)
  | .newSandboxID, id => some (.inl ⟨.newSandboxID, id⟩)
  | .decide id action, a => some (.inl ⟨.decide id action, a⟩)
  | .backend (.operate o), a => some (.inr ⟨o, a⟩)
  | .now, _ | .backend (.base _), _ => none

/-- A call that a method issues of its own. -/
def ServedInner : (calls served).Call → Prop
  | .now | .backend (.engine _) => True
  | .newSandboxID | .store _ | .decide _ _ | .backend (.operate _) => False

def servedInner : (c : (calls served).Call) → Daemon → (calls served).Answer c → Daemon → Prop
  | .backend (.engine c), d, a, d' => Daemon.act c d a d'
  | _, d, _, d' => d' = d

def servedLayout : Layout (calls Runtime.methods) (calls served) (World Daemon) (World (Multiset String)) (Database × Time)
    Daemon (Multiset String) (Exchange (calls noRuntime) ⊕ Operated) where
  low k d := ⟨k.1, k.2, d⟩
  high k m := ⟨k.1, k.2, m⟩
  abs := Daemon.census
  Inner := ServedInner
  inner := servedInner
  moves := Daemon.Moves
  see := seenBelow
  see' := seenAbove

section Levels
variable (u : HttpApi.Unmarshal) (host : Host)

theorem served_direct {c : (calls Runtime.methods).Call} (hc : ∀ b, c ≠ .backend (.base b)) :
    servedLayout.Direct (dockerServer u host) (server u Backend.census.served) (serve host) c := by
  cases c with
  | now => exact ⟨.now, id, rfl, fun _ => rfl, fun k r a s ⟨ht, hs⟩ => ⟨k, hs, fun m => ⟨ht, rfl⟩⟩⟩
  | newSandboxID => exact ⟨.newSandboxID, id, rfl, fun _ => rfl, fun k r a s ⟨hv, hs⟩ => ⟨k, hs, fun m => ⟨hv, rfl⟩⟩⟩
  | store c =>
    refine ⟨.store c, id, rfl, fun _ => rfl, fun k r a s ⟨f, db, hexec, hs⟩ => ⟨(db, k.2), hs, fun m => ?_⟩⟩
    exact ⟨f, db, hexec, rfl⟩
  | decide x action => exact ⟨.decide x action, id, rfl, fun _ => rfl, fun k r a s hs => ⟨k, hs, fun m => rfl⟩⟩
  | backend method =>
    cases method with
    | base b => exact absurd rfl (hc b)
    | operate o =>
      refine ⟨.backend (.operate o), id, rfl, fun _ => rfl, fun k r a s ⟨d, hsame, hs⟩ => ⟨k, ?_, fun m => ⟨m, rfl, rfl⟩⟩⟩
      obtain rfl : d = r := hsame
      exact hs

theorem served_block (b : Runtime.Call) :
    servedLayout.Block (server u Backend.census.served) (serve host) (.backend (.base b)) where
  calls := Program.Calls.embed (impl_calls host (Q := Inner) (fun _ => trivial) trivial b) fun c hc => by
    cases c with
    | now | backend => trivial
    | newSandboxID | store | decide => exact hc.elim
  unseen _ := rfl
  act log d r d' h k := by
    have hengine : ∀ c s x t, servedInner (engineCalls.call c) s x t → inner c s (engineCalls.answer c x) t := by
      intro c s x t hact
      cases c <;> exact hact
    obtain ⟨log', h⟩ := Program.Completes.of_embed hengine h
    obtain ⟨m₁, m₂, hbefore, hact, hafter⟩ := impl_serves h
    exact ⟨m₁, m₂, .backend ⟨k.1, k.2, d.census⟩ m₁ hbefore, ⟨m₂, hact, rfl⟩, .backend ⟨k.1, k.2, m₂⟩ d'.census hafter⟩

theorem served_abort {c : (calls served).Call} (hc : ServedInner c) (d : Daemon) : ∃ a, servedInner c d a d := by
  cases c with
  | now => exact ⟨(0 : Time), rfl⟩
  | newSandboxID | store | decide => exact hc.elim
  | backend c =>
    cases c with
    | operate o => exact hc.elim
    | engine c => exact inner_abort (c := .backend c) trivial d

theorem served_perform {c : (calls served).Call} (hc : ServedInner c) {k : Database × Time} {d : Daemon}
    {a : (calls served).Answer c} {w : World Daemon} (h : Backend.dockerServed.perform c ⟨k.1, k.2, d⟩ a w) :
    ∃ d', w = ⟨k.1, k.2, d'⟩ ∧ servedInner c d a d' := by
  cases c with
  | now => exact ⟨d, h.2, rfl⟩
  | newSandboxID | store | decide => exact hc.elim
  | backend c =>
    cases c with
    | operate o => exact hc.elim
    | engine c =>
      obtain ⟨d', hact, rfl⟩ := h
      exact ⟨d', rfl, hact⟩

theorem served_implements :
    servedLayout.Implements (dockerServer u host) (server u Backend.census.served) (serve host) where
  handler _ := rfl
  direct i := (HttpApi.Request.handle_tells u i).calls fun h c hc => served_direct u host fun b he => by
    subst he
    exact hc
  worker := rfl
  kinds c := by
    cases c with
    | backend method =>
      cases method with
      | base b => exact .inr (served_block u host b)
      | operate o => exact .inl (served_direct u host (by simp))
    | now | newSandboxID | store | decide => exact .inl (served_direct u host (by simp))
  inner_act _ hd _ _ _ _ h := served_perform hd h
  inner_unseen d hd a := by
    cases d with
    | now => rfl
    | newSandboxID | store | decide => exact hd.elim
    | backend c =>
      cases c with
      | engine => rfl
      | operate => exact hd.elim
  abort _ hd d := served_abort hd d
  env k d s h := by
    cases h with
    | tick t ht => exact .inl ⟨(k.1, t), rfl, fun m => .tick ⟨k.1, k.2, m⟩ t ht⟩
    | backend d' hmoves => exact .inr ⟨d', rfl, hmoves⟩
  moves_refl := moves_refl
  moves_trans _ _ _ := moves_trans
  moves_env k d d' h := .backend ⟨k.1, k.2, d.census⟩ d'.census (Daemon.census_moves h)

/-! ## The process and the control plane -/

/-- The process stands where the control plane does: there is a state of the server over the census between the two. -/
def Follows (C : DockerServerConfig) (C' : ControlConfig (Multiset String)) : Prop :=
  ∃ M, servedLayout.Agrees (dockerServer u host) (server u Backend.census.served) (serve host) C M ∧
    (HttpApi.extendsControlPlane u Backend.census.served).Agrees M C'

variable {u host} {C D : DockerServerConfig} {C' : ControlConfig (Multiset String)} {ls : List DockerServerLabel} {w : World Daemon}

theorem follows_idle (w : World Daemon) : Follows u host (.idle w) (.idle ⟨w.db, w.clock, w.backend.census⟩) :=
  ⟨_, Layout.agrees_idle (w.db, w.clock) w.backend, (HttpApi.extendsControlPlane u _).agrees_idle _⟩

theorem Follows.shared (h : Follows u host C C') : C'.shared.db = C.shared.db ∧ C'.shared.clock = C.shared.clock := by
  obtain ⟨M, ⟨⟨k, r₀, r, hlow, hhigh, -⟩, -⟩, hagrees⟩ := h
  rw [← hagrees.shared, hlow, hhigh]
  exact ⟨rfl, rfl⟩

/-- While no pass is in flight the containers are those of the census. -/
theorem Follows.resting (h : Follows u host C C') (hidle : C.worker = none) :
    C'.worker = none ∧ C'.shared.backend = C.shared.backend.census := by
  obtain ⟨M, ⟨⟨k, r₀, r, hlow, hhigh, hpass⟩, -⟩, hagrees⟩ := h
  rw [hidle] at hpass
  obtain ⟨hworker, rfl⟩ := hpass.none_inv
  rw [← hagrees.shared, hlow, hhigh]
  exact ⟨Option.map_eq_none_iff.mp (hagrees.worker.symm.trans hworker), rfl⟩

theorem Follows.run (h : Follows u host C C') (hrun : (dockerServer u host).Run Always C ls D) :
    ∃ ls' D', (controlPlane .census).Run Always C' ls' D' ∧ Follows u host D D' ∧
      ∀ n i j b, i.control u = some j → .respond n i b ∈ ls → ∃ r, .respond n j r ∈ ls' ∧ b = i.render r := by
  obtain ⟨M, hlower, hupper⟩ := h
  obtain ⟨ms, M', hrunM, hlooks, hlower'⟩ := hlower.run (served_implements u host) hrun
  obtain ⟨ls', D', hrun', htraces, hupper'⟩ := hupper.run hrunM
  rw [Backend.reconciled_served (B := .census) fun m => le_refl m] at hrun'
  exact ⟨ls', D', hrun', ⟨M', hlower', hupper'⟩, fun n i j b hi hb => htraces.respond hi (respond_of_event hlooks hb)⟩

/-- **The process refines the control plane**: beside every run of the HTTP server and its reconciler over Docker there is
one of the control plane over the census, with the same tables and the same clock, the same containers while no pass is
in flight, and for every create, keepalive and delete that can be read the answer that the client is told. -/
theorem process_refines_controlPlane (h : (dockerServer u host).Run Always (.idle w) ls C) :
    ∃ ls' C', (controlPlane .census).Run Always (.idle ⟨w.db, w.clock, w.backend.census⟩) ls' C' ∧
      C'.shared.db = C.shared.db ∧ C'.shared.clock = C.shared.clock ∧
      (C.worker = none → C'.worker = none ∧ C'.shared.backend = C.shared.backend.census) ∧
      ∀ n i j b, i.control u = some j → .respond n i b ∈ ls → ∃ r, .respond n j r ∈ ls' ∧ b = i.render r := by
  obtain ⟨ls', C', hrun, hfollows, hreplies⟩ := (follows_idle w).run h
  exact ⟨ls', C', hrun, hfollows.shared.1, hfollows.shared.2, hfollows.resting, hreplies⟩

end Levels

/-! ### A process nothing fails at -/

/-- Commands succeed and print nothing; no file is kept. -/
def runServed : (c : ServedCall) → Daemon → c.Answer × Daemon
  | .engine c, d => Daemon.run c d
  | .operate o, d => (Fleet.operate o .empty, d)

def processExec : (c : (calls served).Call) → World Daemon → (calls served).Answer c × World Daemon :=
  execute (fun _ => exampleID) runServed

theorem processExec_performs (c : (calls served).Call) (w : World Daemon) :
    Backend.dockerServed.perform c w (processExec c w).1 (processExec c w).2 := by
  refine Backend.perform_execute (fun _ => validateSandboxID_exampleID) (fun c d => ?_) c w
  cases c with
  | engine c => exact Daemon.act_run c d
  | operate o => exact rfl

/-- The theorem at a create and the pass that starts it. -/
theorem process_refines_controlPlane_started : ∃ ls ls' C C',
    (dockerServer .zero exampleHost).Run Always (.idle ⟨.empty, 0, .empty⟩) ls C ∧
    (controlPlane .census).Run Always (.idle ⟨.empty, 0, 0⟩) ls' C' ∧
      C'.shared.db.sandboxes.rows.map (·.state) = [.running] ∧ C'.shared.backend = {exampleID} := by
  obtain ⟨ls₁, h₁⟩ := (Run.start (dockerServer .zero exampleHost) Always (.idle ⟨.empty, 0, .empty⟩)).thenServe
    processExec_performs 0 (.createSandbox "k" .document) rfl
  obtain ⟨ls₂, h₂⟩ := h₁.thenPass processExec_performs rfl
  obtain ⟨ls', C', hrun, hdb, -, hidle, -⟩ := process_refines_controlPlane h₂
  refine ⟨_, ls', _, C', h₂, hrun, ?_, ?_⟩
  · rw [hdb]
    decide +kernel
  · rw [(hidle rfl).2]
    decide +kernel

end Docker

/-! ## No container comes back -/

theorem Backend.census_observes : Observes Backend.census (fun id m => id ∉ m) fun id m => m.count id ≤ 1 where
  single_of_absent id m h := by
    rw [Multiset.count_eq_zero.mpr h]
    omega
  listed := by
    rintro id m infos m' ⟨rfl, hids⟩ hno hmem
    obtain ⟨info, hinfo, he⟩ := List.mem_map.mp ((hids id).mpr hmem)
    exact hno info hinfo he
  destroyed := by
    rintro id m m' ⟨-, rfl⟩ hsingle
    rw [← Multiset.count_eq_zero, Multiset.count_erase_self]
    omega
  created := by
    rintro id spec m a m' h habsent
    have hnone : m.count id = 0 := Multiset.count_eq_zero.mpr habsent
    have hmade : m' = m ∨ m' = id ::ₘ m := by
      cases a with
      | ok info => exact .inr h.2.2.2
      | error e => exact h.imp_right And.right
    rcases hmade with rfl | rfl
    · omega
    · rw [Multiset.count_cons_self]
      omega
  keeps := by
    rintro id c m a m' h hc
    have hle : m'.count id ≤ m.count id := by
      cases c with
      | create made spec =>
        have hne : id ≠ made := fun he => hc spec (by rw [he])
        have hmade : m' = m ∨ m' = made ::ₘ m := by
          cases (a : Except Err Runtime.Info) with
          | ok info => exact .inr h.2.2.2
          | error e => exact h.imp_right And.right
        rcases hmade with rfl | rfl
        · exact le_rfl
        · rw [Multiset.count_cons_of_ne hne]
      | destroy gone =>
        have hgone : m' = m ∨ m' = m.erase gone := by
          cases (a : Except Err Unit) with
          | ok u => exact .inr h.2
          | error e => exact h.imp_right And.right
        rcases hgone with rfl | rfl
        · exact le_rfl
        · exact Multiset.count_le_of_le id (Multiset.erase_le gone m)
      | list =>
        cases (a : Except Err (List Runtime.Info)) with
        | ok infos => exact (congrArg (Multiset.count id) h.1).le
        | error e => exact (congrArg (Multiset.count id) h).le
    refine ⟨fun habsent => ?_, fun hsingle => hle.trans hsingle⟩
    rw [← Multiset.count_eq_zero] at habsent ⊢
    omega
  env id m m' hle := ⟨fun habsent hmem => habsent (Multiset.mem_of_le hle hmem), (Multiset.count_le_of_le id hle).trans⟩

namespace Docker

theorem free_iff_census {d : Daemon} {id : String} : Free id d ↔ id ∉ d.census := by
  rw [Daemon.mem_census, not_exists]
  exact forall_congr' fun c => not_and.symm

/-- **No container comes back**: where no pass is in flight, a row is finished and no container carries its id, so it is
in every state after, in the middle of the runtime's methods too and across crashes and restarts. -/
theorem ended_stays_free {u : HttpApi.Unmarshal} {host : Host} {w : World Daemon} {ls ms : List DockerServerLabel}
    {C D : DockerServerConfig} {id : String} (h : (dockerServer u host).Run Always (.idle w) ls C) (hidle : C.worker = none)
    {row : SandboxRow} (hrow : C.shared.db.sandbox? id = some row) (hterminal : row.state.Terminal)
    (hfree : Free id C.shared.backend) (hafter : (dockerServer u host).Run Always C ms D) :
    (∃ row', D.shared.db.sandbox? id = some row' ∧ row'.state.Terminal) ∧ Free id D.shared.backend := by
  obtain ⟨ls', C', hrun, hfollows, -⟩ := (follows_idle w).run h
  obtain ⟨hidle', hcensus⟩ := hfollows.resting hidle
  have hended : Ended (fun id m => id ∉ m) id C'.shared := by
    refine ⟨⟨row, ?_, hterminal⟩, ?_⟩
    · rw [hfollows.shared.1]
      exact hrow
    · rw [hcensus]
      exact free_iff_census.mp hfree
  -- seen from after a crash, the containers are those of the census
  obtain ⟨ms', D', hrun', hfollows', -⟩ := hfollows.run (hafter.cons trivial .crash)
  have hobeys := hrun.obeys (V := controlPlane .census) Request.handle_recording (Program.nodes_true _) (obeys_idle _)
  obtain ⟨⟨row', hrow', hterminal'⟩, hgone⟩ := hended.run Backend.census_observes hobeys hidle' hrun'
  rw [hfollows'.shared.1] at hrow'
  rw [(hfollows'.resting rfl).2] at hgone
  exact ⟨⟨row', hrow', hterminal'⟩, free_iff_census.mpr hgone⟩

/-- A sandbox created, started, deleted and destroyed. -/
def destroyedWorld : World Daemon :=
  let pass (w : World Daemon) : World Daemon := ((dockerServer .zero exampleHost).worker.run processExec w).2
  let serve (i : HttpApi.Request) (w : World Daemon) : World Daemon :=
    (((dockerServer .zero exampleHost).handler i).run processExec w).2
  pass (serve (.destroySandbox exampleID) (pass (serve (.createSandbox "k" .document) ⟨.empty, 0, .empty⟩)))

/-- The theorem at that sandbox, and a pass cut short by a crash. -/
theorem ended_stays_free_destroyed : ∃ ls C ms D,
    (dockerServer .zero exampleHost).Run Always (.idle ⟨.empty, 0, .empty⟩) ls C ∧ C.worker = none ∧
    C.shared.db.sandboxes.rows.map (·.state) = [.stopped] ∧ C.shared.backend.containers.rows = [] ∧
    (dockerServer .zero exampleHost).Run Always C (.crash :: ms) D ∧ ms ≠ [] ∧
    (∃ row, D.shared.db.sandbox? exampleID = some row ∧ row.state.Terminal) ∧ Free exampleID D.shared.backend := by
  obtain ⟨ls₁, h₁⟩ := (Run.start (dockerServer .zero exampleHost) Always (.idle ⟨.empty, 0, .empty⟩)).thenServe
    processExec_performs 0 (.createSandbox "k" .document) rfl
  obtain ⟨ls₂, h₂⟩ := h₁.thenPass processExec_performs rfl
  obtain ⟨ls₃, h₃⟩ := h₂.thenServe processExec_performs 1 (.destroySandbox exampleID) rfl
  obtain ⟨ls₄, h₄⟩ := h₃.thenPass processExec_performs rfl
  have hdestroyed : (dockerServer .zero exampleHost).Run Always (.idle ⟨.empty, 0, .empty⟩) _
    ⟨destroyedWorld, none, fun _ => none⟩ := h₄
  have hempty : destroyedWorld.backend.containers.rows = [] := by decide +kernel
  have hrow : (destroyedWorld.db.sandbox? exampleID).any (fun row => row.state = .stopped) = true := by decide +kernel
  obtain ⟨row, hfound, hstate⟩ := (Option.any_eq_true ..).mp hrow
  have hfree : Free exampleID destroyedWorld.backend := fun c hc => by
    rw [hempty] at hc
    cases hc
  have h₅ := (Run.start (dockerServer .zero exampleHost) Always ⟨destroyedWorld, none, fun _ => none⟩).cons trivial
    (.wake rfl)
  have h₆ := (h₅.trans (Run.work_advance processExec_performs 2 rfl)).cons trivial .crash
  exact ⟨_, _, _, _, hdestroyed, rfl, by decide +kernel, hempty, h₆, by simp,
    ended_stays_free hdestroyed rfl hfound (.inl (of_decide_eq_true hstate)) hfree h₆⟩

end Docker
end Quickspin
