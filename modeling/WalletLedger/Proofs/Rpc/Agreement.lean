import WalletLedger.Proofs.Engine.Labels
import WalletLedger.Proofs.Rpc.Addresses
import WalletLedger.Proofs.Rpc.Answers
import WalletLedger.Proofs.Rpc.Labels

/-!
# Remote and local refreshes agree

A refresh over a client of a server for a snapshot makes the same records and statistics
as a refresh over the snapshot itself, however the server arranges its replies and whether
or not it accepts batches of labels.
-/

namespace WalletLedger

open Json (Codec)

namespace Rpc
namespace Host

variable {π : Type} {h : Host π}

/-!
# The client as an engine
-/

section Client

variable {a : Access π} {P : AddressCache → Prop}

def renders (h : Host π) (params : List Json) : Except Json Json :=
  h.settled ⟨"get_destination_address", params⟩

theorem ask_told {α : Type} {c : Codec α} {call : Call} {x : α} (ha : a.peer = h.peer)
    (ht : h.Tells c call x) : (a.ask c call).Yields (Client.Caches P) (.ok x) := by
  rw [← ht.read call.method]
  exact Access.ask_yields (answersAlone ha) ht.answers c

theorem givesAddresses (ha : a.peer = h.peer) : a.GivesAddresses h.renders where
  alone := by
    intro call hcall
    rcases hcall with ⟨key, rfl⟩
    exact answersAlone ha _ (tells_address h key).answers
  together := by
    intro calls hne hcalls start p
    have hanswers : ∀ call ∈ calls, h.Answers call := by
      intro call hcall
      rcases hcalls call hcall with ⟨key, rfl⟩
      exact (tells_address h key).answers
    rcases carriesItems_or_refused ha hne hanswers start p with hitems | ⟨_, hlabels⟩
    · apply hitems.congr
      intro call hcall
      rcases hcalls call hcall with ⟨key, rfl⟩
      rfl
    · rcases List.exists_mem_of_ne_nil calls hne with ⟨call, hcall⟩
      rcases hcalls call hcall with ⟨key, rfl⟩
      have hmethod : "get_destination_address" = "get_subaddress_label" := hlabels _ hcall
      exact absurd hmethod (by decide)

def tellsLabel (h : Host π) (params : List Json) : Except CoreError Json :=
  h.heard ⟨"get_subaddress_label", params⟩

theorem givesLabels (ha : a.peer = h.peer) (hsize : a.chunkSize < 2 ^ 64) :
    a.GivesLabels h.tellsLabel := by
  apply Access.givesLabels_of_answers hsize
  · intro call hcall
    rcases hcall with ⟨index, rfl⟩
    exact answersAlone ha _ (tells_label h index).answers
  · intro calls hne hcalls start p
    have hanswers : ∀ call ∈ calls, h.Answers call := by
      intro call hcall
      rcases hcalls call hcall with ⟨index, rfl⟩
      exact (tells_label h index).answers
    rcases carriesItems_or_refused ha hne hanswers start p with hitems | ⟨hrefused, _⟩
    · left
      apply hitems.congr
      intro call hcall
      rcases hcalls call hcall with ⟨index, rfl⟩
      rfl
    · exact .inr hrefused

/-- A batch of labels is answered or falls back to single calls; the labels are the same. -/
theorem labels_yields (ha : a.peer = h.peer) (hsize : a.chunkSize < 2 ^ 64)
    (indices : List SubaddressIndex) :
    (a.labels indices).Yields (Client.Caches P) (.ok (indices.map (lastLabel h.snapshot.labels))) := by
  have htold : indices.mapM (labelGiven h.tellsLabel) =
      .ok (indices.map (lastLabel h.snapshot.labels)) :=
    Results.mapM_eq_ok_map fun index _ => (tells_label h index).read _
  rw [← htold]
  exact Access.labels_yields (givesLabels ha hsize) indices

theorem addresses_yields (ha : a.peer = h.peer) (hsize : a.chunkSize < 2 ^ 64)
    (keys : List RenderKey) :
    (a.addresses keys).Yields (CachesTruth π h.renders)
      (.ok (keys.map fun key => Snapshot.given key.destination)) := by
  intro c hc
  refine ⟨(addresses_ok_iff (givesAddresses ha) hsize hc).mpr ?_,
    (addresses_run (givesAddresses ha) hsize keys hc).2⟩
  rw [List.forall₂_map_right_iff, List.forall₂_same]
  exact fun key _ => (tells_address h key).read _

theorem engine_serves (ha : a.peer = h.peer) (hread : h.snapshot.Readable)
    (hsize : a.chunkSize < 2 ^ 64) (w : HeightWindow) :
    a.engine.Serves (CachesTruth π h.renders) w (h.snapshot.ledgers w)
      (lastLabel h.snapshot.labels) Snapshot.given where
  height := ask_told ha (tells_height h)
  network := ask_told ha (tells_network h)
  incoming := ask_told ha (tells_incoming h w)
  outgoing := ask_told ha (tells_outgoing hread w)
  pending := ask_told ha (tells_pending hread)
  pool := ask_told ha (tells_pool h)
  labels := labels_yields ha hsize
  addresses keys n := by
    have hall := addresses_yields ha hsize (keys.map fun (d, p) => ⟨d, n, p⟩)
    rw [List.map_map] at hall
    exact hall

/-- Labels entered over one another come to the same as looking for the last one. -/
theorem label_eq_lastLabel (s : Snapshot) : s.label = lastLabel s.labels := by
  funext index
  unfold Snapshot.label LabelTable.label lastLabel
  rw [s.get?_labelTable]
  cases (s.labels.filter fun e => e.index = index).getLast? <;> rfl

/-- Over a client of a server for a snapshot and over the snapshot itself a refresh makes the
same records and, but for what the clock says, the same statistics. -/
theorem refresh_agrees {text : String} (hread : Snapshot.ofText text = .ok h.snapshot)
    (ha : a.peer = h.peer) (hsize : a.chunkSize < 2 ^ 64) (w : HeightWindow)
    (remoteTiming timing : Timing) (remoteHistory history : History) (peer : π)
    (firstId : UInt64) {σ : Type} (s : σ) :
    let remote := History.refresh a.engine w remoteTiming ⟨remoteHistory, .start peer firstId⟩
    let straight := History.refresh h.snapshot.engine w timing ⟨history, s⟩
    ∃ stats, straight.answer = .ok stats ∧ straight.state.history.lastRefresh = some stats ∧
      ∃ remoteStats, remote.answer = .ok remoteStats ∧
        remote.state.history.lastRefresh = some remoteStats ∧
        remoteStats = { stats with
          durationMs := remoteTiming.durationMs
          completedAt := remoteTiming.completedAt } ∧
        remote.state.history.records = straight.state.history.records := by
  intro remote straight
  have hremote : remote.answer = _ ∧ remote.state.history = _ :=
    History.refresh_of_serves
      (engine_serves ha (Snapshot.readable_of_ofText hread) hsize w) remoteTiming
      AddressCache.empty_faithful
  have hstraight : straight.answer = _ ∧ straight.state.history = _ :=
    History.refresh_of_serves (h.snapshot.engine_serves w) timing trivial
  refine ⟨_, hstraight.1, ?_, _, hremote.1, ?_, rfl, ?_⟩
  · rw [hstraight.2]
  · rw [hremote.2]
  · rw [hremote.2, hstraight.2, label_eq_lastLabel]

end Client

/-- The miner's wallet with a label that was written over an older one. -/
def relabelled : Snapshot :=
  { Engine.minersWallet with
    labels := [⟨⟨0, 1⟩, "mining"⟩, ⟨⟨0, 0⟩, "spare"⟩, ⟨⟨0, 1⟩, "rewards"⟩] }

/-- A server that turns batches of labels down and answers backwards. -/
def stubborn : Host Unit where
  snapshot := relabelled
  status := .ok
  arrange _ items := items.reverse
  arrange_perm _ items := items.reverse_perm
  acceptsLabels _ := false
  refusal _ _ := .failed "too many calls"
  refusal_unreadable _ _ _ _ := ⟨_, rfl⟩
  next _ p := p

def inPairs {π : Type} (h : Host π) : Access π :=
  ⟨h.peer, none, 2, Nat.two_pos⟩

theorem refresh_agrees_stubborn :
    Snapshot.ofText (Snapshot.codec.encode relabelled) = .ok stubborn.snapshot ∧
      ∃ stats, (History.refresh stubborn.inPairs.engine .all ⟨3, 1700000000⟩
          ⟨.empty, .start () 1⟩).answer = .ok stats ∧
        stats.walletHeight = 1000 ∧ stats.incoming = 1 ∧ stats.outgoing = 1 ∧ stats.pool = 1 ∧
        (History.refresh stubborn.inPairs.engine .all ⟨3, 1700000000⟩
          ⟨.empty, .start () 1⟩).state.history.records.map
            (fun r => (r.amount, r.label, r.transfers)) =
          [(5000, "rewards", []), (1000, "rewards", [⟨600, "first"⟩, ⟨400, ""⟩]),
            (42, "spare", [])] := by
  have hreadable : relabelled.Readable := by
    constructor
    · intro e he
      rcases List.mem_singleton.mp he with rfl
      exact nofun
    · exact fun e he => absurd he List.not_mem_nil
  have hread : Snapshot.ofText (Snapshot.codec.encode relabelled) = .ok stubborn.snapshot :=
    Snapshot.ofText_encode hreadable
  have hagree := refresh_agrees (a := stubborn.inPairs) hread rfl (by decide) .all
    ⟨3, 1700000000⟩ ⟨0, 0⟩ .empty .empty () 1 ()
  rcases hagree with ⟨stats, hstats, _, remoteStats, hremote, _, hsame, hrecords⟩
  cases hstats
  refine ⟨hread, remoteStats, hremote, ?_⟩
  rw [hsame, hrecords]
  exact ⟨rfl, rfl, rfl, rfl, rfl⟩

end Host
end Rpc
end WalletLedger
