import Quickspin.System
import Quickspin.Pairing
import Quickspin.Actions
import Quickspin.Lib.Trace

/-! Renewals against reaps. A pass decides from the rows it has listed and acts later; a renewal writes
only the lease, which the guard of the reap does not restate. So a renewal holds against the reaps of
every pass that lists the rows after it, and of no pass that has listed them before. -/
namespace Quickspin
open Interaction Service
set_option autoImplicit false

/-! ## What a pass knows when it reaps -/

abbrev ControlExchange := Exchange (calls Runtime.signature)

/-- The decision the pass is carrying out. -/
def deciding : List ControlExchange → Option (String × ReconcileAction)
  | [] => none
  | ⟨.decide id action, _⟩ :: _ => some (id, action)
  | _ :: h => deciding h

/-- The pass has listed the row with a lease that ended before the clock it then read. -/
def ExpiredIn (h : List ControlExchange) (id : String) : Prop :=
  ∃ sbxs t sbx, (⟨.store .getSandboxes, Except.ok sbxs⟩ : ControlExchange) ∈ h ∧
    (⟨.now, t⟩ : ControlExchange) ∈ h ∧ sbx ∈ sbxs ∧ sbx.sandboxID = id ∧ Time.after t sbx.expiresAt = true

theorem ExpiredIn.cons {h : List ControlExchange} {id : String} (he : ExpiredIn h id) (x : ControlExchange) :
    ExpiredIn (x :: h) id := by
  obtain ⟨sbxs, t, sbx, hl, hn, hrest⟩ := he
  exact ⟨sbxs, t, sbx, List.mem_cons_of_mem _ hl, List.mem_cons_of_mem _ hn, hrest⟩

/-- A reap under way is of a row that has expired. -/
def Justified (h : List ControlExchange) : Prop :=
  ∀ id, deciding h = some (id, .reap) → ExpiredIn h id

def NotDecide : (calls Runtime.signature).Call → Prop
  | .decide _ _ => False
  | _ => True

theorem deciding_cons {c : (calls Runtime.signature).Call} (hc : NotDecide c) (a : (calls Runtime.signature).Answer c)
    (h : List ControlExchange) : deciding (⟨c, a⟩ :: h) = deciding h := by
  cases c with
  | decide => exact hc.elim
  | now | newSandboxID | store | backend => rfl

namespace Reconciler

/-- What the items of a pass find in its exchanges: the listing and the clock. -/
def Listed (sbxs : List Sandbox) (t : Time) (h : List ControlExchange) : Prop :=
  Justified h ∧ (⟨.store .getSandboxes, Except.ok sbxs⟩ : ControlExchange) ∈ h ∧ (⟨.now, t⟩ : ControlExchange) ∈ h

theorem Listed.cons {sbxs : List Sandbox} {t : Time} {h : List ControlExchange} (hl : Listed sbxs t h)
    {c : (calls Runtime.signature).Call} (hc : NotDecide c) (a : (calls Runtime.signature).Answer c) :
    Listed sbxs t (⟨c, a⟩ :: h) := by
  refine ⟨fun id hd => ?_, List.mem_cons_of_mem _ hl.2.1, List.mem_cons_of_mem _ hl.2.2⟩
  rw [deciding_cons hc] at hd
  exact (hl.1 id hd).cons _

end Reconciler
/-! ## What a keepalive knows when it succeeds -/

/-- A keepalive that answers with a sandbox was answered so by its renewal. -/
def Request.Told : Request → List ControlExchange → Response → Prop
  | .keepalive id _, h, r => ∀ sbx, r = .sandbox (.ok sbx) → ∃ expiresAt,
    (⟨.store (.updateSandboxExpiry id expiresAt), Except.ok sbx⟩ : ControlExchange) ∈ h
  | _, _, _ => True

theorem Request.handle_tells (i : Request) :
    (Request.handle i).Tells (fun _ _ => True) (Request.Told i) [] := by
  cases i with
  | create | destroy => exact Program.tells_true _ _
  | keepalive id ttl =>
    show Program.Tells _ _ _ (Control.keepaliveSandbox id ttl >>= _)
    unfold Control.keepaliveSandbox
    rcases resolveTTL (min ttl MaxTTL) with e | ttl'
    · exact fun sbx hr => nomatch hr
    refine ⟨trivial, fun t => ⟨trivial, fun a sbx hr => ⟨Time.add t ttl', ?_⟩⟩⟩
    rcases (a : Except Err Sandbox) with e | sbx'
    · cases hr
    · cases hr
      exact List.mem_cons_self ..

/-! ## Along a run -/

section Run
variable {ρ : Type} {B : Backend Runtime.signature ρ} {ls : List ControlLabel} {C C' : ControlConfig ρ}
  {l : ControlLabel}

/-- The call is one by which an action takes effect on the sandbox. -/
def ActsOn (id : String) : (calls Runtime.signature).Call → Prop
  | .backend (.destroy id') => id' = id
  | .store (.updateSandboxState id' _ _ _ _) => id' = id
  | _ => False

/-- A call of the worker that destroys the sandbox's container, or moves its row, because it has expired. -/
def Reaps (ls : List ControlLabel) (id : String) (c : (calls Runtime.signature).Call) : Prop :=
  deciding (passLog ls) = some (id, .reap) ∧ ActsOn id c

/-- The step is the renewal of a request, answered with the sandbox. -/
def Renews (id : String) (sbx : Sandbox) (l : ControlLabel) : Prop :=
  ∃ n i expiresAt, l = .request n i (.store (.updateSandboxExpiry id expiresAt)) (Except.ok sbx)

/-- No renewal still in force was made since the pass that reaps the sandbox listed the rows, and none is
replaced by one that ends earlier. -/
structure ReapSeesLease (ls : List ControlLabel) (C : ControlConfig ρ) (l : ControlLabel) : Prop where
  seen : ∀ id c a, l = .work c a → Reaps ls id c → ∀ post pre r,
    ls = post ++ .work (.store .getSandboxes) r :: pre → .wake ∉ post →
      ∀ x ∈ post, ∀ sbx, Renews id sbx x → sbx.expiresAt < C.shared.clock
  longer : ∀ id expiresAt a, Asks l (.updateSandboxExpiry id expiresAt) a →
    ∀ x ∈ ls, ∀ sbx, Renews id sbx x → C.shared.clock ≤ sbx.expiresAt → sbx.expiresAt ≤ expiresAt

/-- Every renewal in force is held by its row. -/
def Granted (ls : List ControlLabel) (w : World ρ) : Prop :=
  ∀ x ∈ ls, ∀ id sbx, Renews id sbx x → w.clock ≤ sbx.expiresAt →
    ∃ row, w.db.sandbox? id = some row ∧ sbx.expiresAt ≤ row.expiresAt

theorem Renews.granted {id : String} {sbx : Sandbox} (hr : Renews id sbx l) (hs : (controlPlane B).Step C l C') :
    ∃ row, C'.shared.db.sandbox? id = some row ∧ row.expiresAt = sbx.expiresAt := by
  obtain ⟨n, i, expiresAt, hl⟩ := hr
  obtain ⟨f, db, he, hdb⟩ := Asks.exec (B := B) (.inr ⟨n, i, hl⟩) hs
  rcases Sqlite.updateSandboxExpiry_cases he with ⟨row, sbx', hren, -, hscan, hok | ⟨e, hok⟩⟩ | ⟨-, e, hok⟩
  · cases hok
    exact ⟨_, by rw [hdb]; exact (hren.sandbox id).trans (if_pos rfl), (Sqlite.scanSandbox_expiresAt hscan).symm⟩
  · cases hok
  · cases hok

/-- **Step lemma**: where no lease in force is shortened, the rows keep holding the leases that were granted. -/
theorem Granted.step (hg : Granted ls C.shared) (hs : (controlPlane B).Step C l C') (hok : ReapSeesLease ls C l) :
    Granted (l :: ls) C'.shared := by
  intro x hx id sbx hr hclock
  rcases List.mem_cons.mp hx with rfl | hx
  · obtain ⟨row, hrow, he⟩ := hr.granted hs
    exact ⟨row, hrow, he.ge⟩
  have hclock' : C.shared.clock ≤ sbx.expiresAt := (Backend.run_clock_le (Run.one hs)).trans hclock
  obtain ⟨row, hrow, he⟩ := hg x hx id sbx hr hclock'
  rcases Backend.step_db hs with hdb | ⟨s, a, hl, heff⟩
  · exact ⟨row, by rw [hdb, hrow], he⟩
  · rcases heff.row hrow with ⟨hrow', -⟩ | ⟨expiresAt, rfl, -, hrow', -⟩ | ⟨b, reason, m, -, -, hrow', -⟩
    · exact ⟨row, hrow', he⟩
    · exact ⟨_, hrow', hok.longer id expiresAt a hl x hx sbx hr hclock'⟩
    · exact ⟨_, hrow', he⟩

theorem Granted.run {w : World ρ} (h : (controlPlane B).Run ReapSeesLease (.idle w) ls C) : Granted ls C.shared := by
  induction h with
  | nil => exact fun x hx => (nomatch hx)
  | cons _ hok hs ih => exact ih.step hs hok

end Run

/-! ## Two runs over the fleet -/

def Response.sandbox? : Response → Option Sandbox
  | .sandbox (.ok sbx) => some sbx
  | _ => none

/-- The second after the default lease of a sandbox created at time zero. -/
def lapsed : Time := 901000000000

end Quickspin
