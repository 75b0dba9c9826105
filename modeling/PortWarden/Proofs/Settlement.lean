import PortWarden.Probe.Stream
import PortWarden.Proofs.Ledger

/-!
# What a question leaves open

Every socket that a question creates is closed before the question ends, unless it is handed out.
`Leaves` says so of the host before and after a question; the sockets that are left are new, and
nobody contended for what they are bound to. The one way to leave a socket is to open a listener.
-/

namespace PortWarden

/-- The socket that listens on an endpoint. -/
def Socket.listener (id : SocketId) (target : Endpoint) : Socket where
  id := id
  family := target.family
  kind := .stream
  bound := some target
  listening := true

namespace Host

/-- What a question does to a host on which `left` stay open. The sockets that were open before are
as they were, and the books are balanced. -/
structure Leaves (h h' : Host) (left : List Socket) : Prop extends h.Advances h' where
  /-- The sockets left come before those that were open already. -/
  sockets : h'.sockets = left ++ h.sockets
  /-- Numbers given out are not taken back. -/
  created : h.created ≤ h'.created
  /-- The books are balanced. -/
  balanced : h'.Balanced
  /-- Not more than one socket is left. -/
  single : ∀ s ∈ left, ∀ t ∈ left, s = t
  /-- The sockets left are new. -/
  fresh : ∀ s ∈ left, h.created < s.id
  /-- Nobody contended for what the sockets left are bound to. -/
  uncontended : ∀ s ∈ left, ∀ e, s.bound = some e → h.isContended e = false

namespace Leaves

variable {h m h' : Host} {left : List Socket}

/-- Work that changes no socket leaves nothing. -/
theorem of_tends {id : SocketId} (hb : h.Balanced) (htends : h.Tends id h')
    (hsockets : h'.sockets = h.sockets) : h.Leaves h' [] where
  toAdvances := htends.toAdvances
  sockets := hsockets
  created := Nat.le_of_eq htends.created.symm
  balanced := htends.balanced hb
  single := by simp
  fresh := by simp
  uncontended := by simp

/-- A question that is not asked leaves nothing. -/
theorem refl (hb : h.Balanced) : h.Leaves h [] := of_tends hb (.refl 0 h) rfl

/-- A question that leaves nothing open can come before any other. -/
theorem trans (hfirst : h.Leaves m []) (hrest : m.Leaves h' left) : h.Leaves h' left where
  toAdvances := hfirst.toAdvances.trans hrest.toAdvances
  sockets := by simpa only [hfirst.sockets, List.nil_append] using hrest.sockets
  created := Nat.le_trans hfirst.created hrest.created
  balanced := hrest.balanced
  single := hrest.single
  fresh s hs := Nat.lt_of_le_of_lt hfirst.created (hrest.fresh s hs)
  uncontended s hs e he := by
    have hown : m.ownListeners = h.ownListeners := by
      simp only [ownListeners, hfirst.sockets, List.nil_append]
    rw [← isContended_congr hfirst.foreign hown]
    exact hrest.uncontended s hs e he

/-- A question that leaves nothing open can come after any other. -/
theorem trans_nothing (hfirst : h.Leaves m left) (hrest : m.Leaves h' []) : h.Leaves h' left where
  toAdvances := hfirst.toAdvances.trans hrest.toAdvances
  sockets := by simpa only [hrest.sockets, List.nil_append] using hfirst.sockets
  created := Nat.le_trans hfirst.created hrest.created
  balanced := hrest.balanced
  single := hfirst.single
  fresh := hfirst.fresh
  uncontended := hfirst.uncontended

end Leaves

/-- Counting a call against the faults leaves nothing open. -/
theorem leaves_strike {h : Host} (hb : h.Balanced) (operation : Operation)
    (site : Option CallSite) : h.Leaves (h.strike operation site).2 [] :=
  .of_tends hb (tends_strike 0 h operation site) rfl

/-- Putting a call on record by which no socket comes or goes leaves nothing open. -/
theorem leaves_record {h : Host} (hb : h.Balanced) {call : Call} (hopened : call.opened? = none)
    (hclosed : call.closed? = none) : h.Leaves (h.record call) [] :=
  .of_tends hb (tends_record 0 h hopened hclosed) rfl

/-- From a host to the same one with one more socket. -/
theorem advances_withSocket (h : Host) (family : Family) (kind : SocketKind) :
    h.Advances (h.withSocket family kind) :=
  ⟨rfl, rfl, rfl, List.suffix_cons _ _, fun _ => rfl⟩

/-- Closing a socket changes nothing around the host. -/
theorem advances_close (h : Host) (id : SocketId) : h.Advances (h.close id) :=
  ⟨rfl, rfl, rfl, List.suffix_cons _ _, fun _ => rfl⟩

/-- The sockets that were open before another was created have other numbers. -/
theorem Balanced.filter_sockets {h : Host} (hb : h.Balanced) :
    h.sockets.filter (·.id != h.created + 1) = h.sockets := by
  refine List.filter_eq_self.mpr fun s hs => bne_iff_ne.mpr ?_
  exact Nat.ne_of_lt (Nat.lt_succ_of_le (hb.id_le_created hs))

/-- A socket that is worked on and then closed is not left open. -/
theorem leaves_nothing {h h' : Host} (hb : h.Balanced) {family : Family} {kind : SocketKind}
    (hwork : (h.withSocket family kind).Tends (h.created + 1) h') :
    h.Leaves (h'.close (h.created + 1)) [] where
  toAdvances := ((h.advances_withSocket family kind).trans hwork.toAdvances).trans
    (h'.advances_close _)
  sockets := by
    have hnew : (h.withSocket family kind).sockets.filter (·.id != h.created + 1) =
        h.sockets.filter (·.id != h.created + 1) := by
      simp [withSocket, record]
    calc h'.sockets.filter (·.id != h.created + 1)
        = h.sockets.filter (·.id != h.created + 1) := hwork.others.trans hnew
      _ = h.sockets := hb.filter_sockets
  created := by
    change h.created ≤ h'.created
    rw [hwork.created]
    exact Nat.le_succ _
  balanced := by
    refine (hwork.balanced (hb.withSocket family kind)).close ?_
    rw [hwork.ids]
    exact .head _
  single := by simp
  fresh := by simp
  uncontended := by simp

/-- A socket that is worked on until it listens, where nobody contended, is left open. -/
theorem leaves_listener {h h' : Host} (hb : h.Balanced) {target : Endpoint}
    (hwork : (h.withSocket target.family .stream).Tends (h.created + 1) h')
    (hsockets : h'.sockets = Socket.listener (h.created + 1) target :: h.sockets)
    (hfree : h.isContended target = false) :
    h.Leaves h' [Socket.listener (h.created + 1) target] where
  toAdvances := (h.advances_withSocket target.family .stream).trans hwork.toAdvances
  sockets := hsockets
  created := by
    rw [hwork.created]
    exact Nat.le_succ _
  balanced := hwork.balanced (hb.withSocket target.family .stream)
  single := by simp
  fresh := by simp [Socket.listener]
  uncontended := by simpa [Socket.listener] using hfree

/-- A listener that was left open and is closed is not left open. -/
theorem Leaves.close {h h' : Host} {id : SocketId} {target : Endpoint} (hb : h.Balanced)
    (hleaves : h.Leaves h' [Socket.listener id target]) : h.Leaves (h'.close id) [] where
  toAdvances := hleaves.toAdvances.trans (h'.advances_close id)
  sockets := by
    have hfresh : h.created < id := hleaves.fresh _ (.head _)
    have hold : h.sockets.filter (·.id != id) = h.sockets :=
      List.filter_eq_self.mpr fun s hs =>
        bne_iff_ne.mpr (Nat.ne_of_lt (Nat.lt_of_le_of_lt (hb.id_le_created hs) hfresh))
    calc h'.sockets.filter (·.id != id)
        = h.sockets.filter (·.id != id) := by simp [hleaves.sockets, Socket.listener]
      _ = h.sockets := hold
  created := hleaves.created
  balanced := by
    refine hleaves.balanced.close ?_
    simp [ids, hleaves.sockets, Socket.listener]
  single := by simp
  fresh := by simp
  uncontended := by simp

end Host

/-- What the answer to a question leaves open; a failure leaves nothing. -/
def leftBy {ε α : Type} (left : α → List Socket) : Except ε α → List Socket
  | .ok a => left a
  | .error _ => []

/-- What leaves nothing by its answers leaves nothing by its failures either. -/
@[simp] theorem leftBy_nothing {ε α : Type} (result : Except ε α) :
    leftBy (fun _ => []) result = [] := by
  cases result <;> rfl

/-- The socket behind a claim on an endpoint, unless the port was in use or only assumed to be
free. -/
def keptAt (target : Endpoint) (kept : Option Keeper) : List Socket :=
  ((kept.bind (·.socket)).map (Socket.listener · target)).toList

/-- A question that, asked of any balanced host, leaves open what belongs to its answer. -/
def LeavesOpen {σ ε α : Type} (host : σ → Host) (left : α → List Socket)
    (question : ExceptT ε (StateM σ) α) : Prop :=
  ∀ s, (host s).Balanced → (host s).Leaves (host (question s).2) (leftBy left (question s).1)

namespace LeavesOpen

variable {σ ε α β : Type} {host : σ → Host} {left : β → List Socket}

/-- An answer that is known beforehand leaves nothing. -/
theorem pure (a : α) : LeavesOpen host (fun _ => []) (pure a : ExceptT ε (StateM σ) α) :=
  fun _ hb => .refl hb

/-- A question that leaves nothing leaves nothing, whatever its answer. -/
theorem leaves_nothing {x : ExceptT ε (StateM σ) α} (hx : LeavesOpen host (fun _ => []) x) {s : σ}
    (hb : (host s).Balanced) : (host s).Leaves (host (x s).2) [] := by
  have hleaves := hx s hb
  rwa [leftBy_nothing] at hleaves

/-- A failure by itself leaves nothing. -/
theorem throw (e : ε) : LeavesOpen host left (throw e : ExceptT ε (StateM σ) β) :=
  fun _ hb => .refl hb

/-- A change of the state around the host leaves nothing. -/
theorem modify {f : σ → σ} (hf : ∀ s, host (f s) = host s) :
    LeavesOpen host (fun _ => []) (modify f : ExceptT ε (StateM σ) Unit) := by
  intro s hb
  rw [leftBy_nothing, modify_apply, hf]
  exact .refl hb

/-- A step that leaves the host alone passes on what was left before. -/
theorem report {leftFirst : α → List Socket} {x : ExceptT ε (StateM σ) α}
    {f : α → ExceptT ε (StateM σ) β} {holds : α → Prop} (hx : LeavesOpen host leftFirst x)
    (hanswers : Answers x holds)
    (hf : ∀ a, holds a → ∀ s, host (f a s).2 = host s ∧ leftBy left (f a s).1 = leftFirst a) :
    LeavesOpen host left (x >>= f) := by
  intro s hb
  have hfirst := hx s hb
  rw [chain_apply]
  rcases hrun : x s with ⟨e | a, t⟩ <;> rw [hrun] at hfirst
  · exact hfirst
  · obtain ⟨hhost, hleft⟩ := hf a (hanswers s a t hrun) t
    rw [hhost, hleft]
    exact hfirst

/-- After a question that leaves nothing, another one leaves what it leaves by itself. -/
theorem chain {x : ExceptT ε (StateM σ) α} {f : α → ExceptT ε (StateM σ) β}
    (hx : LeavesOpen host (fun _ => []) x) (hf : ∀ a, LeavesOpen host left (f a)) :
    LeavesOpen host left (x >>= f) := by
  intro s hb
  have hfirst := hx.leaves_nothing hb
  rw [chain_apply]
  rcases hrun : x s with ⟨e | a, t⟩ <;> rw [hrun] at hfirst
  · exact hfirst
  · exact hfirst.trans (hf a t hfirst.balanced)

/-- A chain whose first question leaves nothing and is known to pass goes on with its answer. -/
theorem goes_on {x : ExceptT ε (StateM σ) α} (hx : LeavesOpen host (fun _ => []) x) {s : σ}
    (hb : (host s).Balanced) {a : α} (hanswer : (x s).1 = .ok a)
    (f : α → ExceptT ε (StateM σ) β) :
    ∃ t, (x >>= f) s = f a t ∧ (host s).Leaves (host t) [] := by
  have hleaves := hx.leaves_nothing hb
  rcases hrun : x s with ⟨result, t⟩
  rw [hrun] at hanswer hleaves
  obtain rfl := hanswer
  exact ⟨t, by rw [chain_apply, hrun], hleaves⟩

end LeavesOpen

end PortWarden
