import WalletLedger.Proofs.Rpc.AddressCache
import WalletLedger.Proofs.Rpc.Batch

/-!
# Addresses through the cache

Of several addresses those in the cache are taken from there, and the others are asked for
in one batch and put in one by one.  Against a peer whose answers depend on the parameters
alone a cache that holds nothing but such answers stays so, and hits and misses together
give the addresses that the peer gives.
-/

namespace WalletLedger
namespace Rpc

/-!
# The peer

`rendered` is what a peer answers to the parameters of an address, a result or an error.
-/

def Call.IsAddress (call : Call) : Prop :=
  ∃ key, call = .address key

/-- What a peer answers with is what its answers to single calls and to batches carry. -/
structure Access.GivesAddresses {π : Type} (a : Access π)
    (rendered : List Json → Except Json Json) : Prop where
  alone : a.AnswersAlone Call.IsAddress fun call => (rendered call.params).mapError errorOf
  together : a.AnswersTogether Call.IsAddress fun call =>
    (rendered call.params).mapError errorOf

def addressGiven (rendered : List Json → Except Json Json) (key : RenderKey) :
    Except CoreError String :=
  (rendered (Call.address key).params).mapError errorOf >>=
    decodeResult Result.address "get_destination_address"

def Gives (rendered : List Json → Except Json Json) (key : RenderKey) (address : String) : Prop :=
  addressGiven rendered key = .ok address

/-!
# Blanks
-/

theorem misses_cons_some (key : RenderKey) (keys : List RenderKey) (address : String)
    (found : List (Option String)) :
    misses (key :: keys) (some address :: found) = misses keys found := rfl

theorem misses_cons_none (key : RenderKey) (keys : List RenderKey)
    (found : List (Option String)) :
    misses (key :: keys) (none :: found) = key :: misses keys found := rfl

/-- With the misses filled in, the list is what all keys would have given. -/
theorem fillBlanks_of_misses {find : RenderKey → Option String}
    {truth : RenderKey → Except CoreError String}
    (hfind : ∀ key address, find key = some address → truth key = .ok address)
    (keys : List RenderKey) :
    ((misses keys (keys.map find)).mapM truth).map (fillBlanks (keys.map find)) =
      keys.mapM truth := by
  induction keys with
  | nil => rfl
  | cons key keys ih =>
      rw [List.map_cons, List.mapM_cons, ← ih]
      cases hkey : find key with
      | some address =>
          rw [misses_cons_some, hfind key address hkey]
          cases (misses keys (keys.map find)).mapM truth <;> rfl
      | none =>
          rw [misses_cons_none, List.mapM_cons]
          cases truth key with
          | ok address => cases (misses keys (keys.map find)).mapM truth <;> rfl
          | error e => rfl

/-!
# Lookups
-/

theorem getAll_answer {π : Type} (keys : List RenderKey) (c : Client π) :
    (Client.withCache (fun cache => cache.getAll keys) c).answer =
      .ok (keys.map c.cache.find?) := by
  rw [← AddressCache.getAll_fst]
  rfl

section Lookups

variable {π : Type} {a : Access π} {rendered : List Json → Except Json Json}

/-- The cache of a client holds nothing but what the peer gives. -/
abbrev CachesTruth (π : Type) (rendered : List Json → Except Json Json) : Client π → Prop :=
  Client.Caches fun cache => cache.Faithful (Gives rendered)

theorem keep_yields {key : RenderKey} {address : String} (h : Gives rendered key address) :
    (Client.keep key address).Yields (CachesTruth π rendered) (.ok ()) :=
  fun _ hc => ⟨rfl, AddressCache.put_faithful hc h⟩

theorem address_yields (h : a.GivesAddresses rendered) (key : RenderKey) :
    (a.address key).Yields (CachesTruth π rendered) (addressGiven rendered key) := by
  intro c hc
  have hget : (Client.withCache (fun cache => cache.get key) c).answer =
      .ok (c.cache.find? key) := by
    rw [← AddressCache.get_fst]
    rfl
  have hcache : CachesTruth π rendered
      (Client.withCache (fun cache => cache.get key) c).state :=
    AddressCache.get_faithful hc key
  unfold Access.address
  rw [(Act.bind_of_ok _ hget).1, (Act.bind_of_ok _ hget).2]
  cases hfind : c.cache.find? key with
  | some address =>
      have htruth : addressGiven rendered key = .ok address := hc.find?_right hfind
      rw [htruth]
      exact ⟨rfl, hcache⟩
  | none =>
      have hask : (a.ask Result.address (.address key)).Yields (CachesTruth π rendered)
          (addressGiven rendered key) := Access.ask_yields h.alone ⟨key, rfl⟩ Result.address
      have hkept := hask.bind fun address htruth =>
        (keep_yields htruth).bind fun _ _ => Act.Yields.pure address
      have hsame : (addressGiven rendered key >>= fun address =>
          (.ok () : Except CoreError Unit) >>= fun _ => .ok address) =
          addressGiven rendered key := by
        cases addressGiven rendered key <;> rfl
      rw [hsame] at hkept
      exact hkept _ hcache

/-- Replies are kept up to the first that cannot be read; what is kept is right. -/
theorem keepAll_yields {pairs : List (RenderKey × Json)}
    (h : ∀ key raw, (key, raw) ∈ pairs → ∀ address,
      decodeResult Result.address "get_destination_address" raw = .ok address →
        Gives rendered key address) :
    (Client.keepAll pairs).Yields (CachesTruth π rendered)
      (pairs.mapM fun (_, raw) => decodeResult Result.address "get_destination_address" raw) := by
  induction pairs with
  | nil => exact Act.Yields.pure []
  | cons pair rest ih =>
      -- The first is kept before the rest is read, and stays when the rest fails.
      rcases pair with ⟨key, raw⟩
      have hrest := ih fun key raw hmem => h key raw (List.mem_cons_of_mem _ hmem)
      rw [List.mapM_cons]
      refine (Act.Yields.ofExcept _).bind fun address haddress => ?_
      have hkeep : (Client.keep key address).Yields (CachesTruth π rendered) (.ok ()) :=
        keep_yields (h key raw List.mem_cons_self address haddress)
      exact hkeep.bind fun _ _ => hrest.bind fun others _ => Act.Yields.pure (address :: others)

/-- What is asked for and kept when some keys are found and the others are not. -/
def addressesGiven (rendered : List Json → Except Json Json) (keys : List RenderKey)
    (found : List (Option String)) : Except CoreError (List String) := do
  let raws ← (misses keys found).mapM fun key =>
    (rendered (Call.address key).params).mapError errorOf
  let fresh ← ((misses keys found).zip raws).mapM fun (_, raw) =>
    decodeResult Result.address "get_destination_address" raw
  return fillBlanks found fresh

theorem addressesGiven_ok_iff {cache : AddressCache}
    (hcache : cache.Faithful (Gives rendered)) {keys : List RenderKey}
    {addresses : List String} :
    addressesGiven rendered keys (keys.map cache.find?) = .ok addresses ↔
      List.Forall₂ (Gives rendered) keys addresses := by
  have hfound : ∀ key address, cache.find? key = some address →
      addressGiven rendered key = .ok address := fun _ _ hfind => hcache.find?_right hfind
  have hfill := fillBlanks_of_misses hfound keys
  have hpasses := fun fresh => @Results.mapM_zip_ok_iff CoreError RenderKey Json String
    (fun key => (rendered (Call.address key).params).mapError errorOf)
    (decodeResult Result.address "get_destination_address")
    (misses keys (keys.map cache.find?)) fresh
  unfold Gives
  rw [← Results.mapM_eq_ok_iff, ← hfill, Results.map_eq_ok_iff]
  unfold addressesGiven
  constructor
  · intro hrun
    rcases Results.bind_eq_ok_iff.mp hrun with ⟨raws, hraws, hrun⟩
    rcases Results.bind_eq_ok_iff.mp hrun with ⟨fresh, hfresh, hrun⟩
    cases hrun
    exact ⟨fresh, (hpasses fresh).mp ⟨raws, hraws, hfresh⟩, rfl⟩
  · intro hrun
    rcases hrun with ⟨fresh, hfresh, hfilled⟩
    rcases (hpasses fresh).mpr hfresh with ⟨raws, hraws, hread⟩
    refine Results.bind_eq_ok_iff.mpr ⟨raws, hraws, ?_⟩
    refine Results.bind_eq_ok_iff.mpr ⟨fresh, hread, ?_⟩
    rw [hfilled]
    rfl

theorem askMisses_yields (h : a.GivesAddresses rendered) (hsize : a.chunkSize < 2 ^ 64)
    (keys : List RenderKey) (found : List (Option String)) :
    Act.Yields (CachesTruth π rendered)
      (do
        let raws ← a.batches ((misses keys found).map Call.address)
        let fresh ← Client.keepAll ((misses keys found).zip raws)
        return fillBlanks found fresh)
      (addressesGiven rendered keys found) := by
  have hbatches : (a.batches ((misses keys found).map Call.address)).Yields
      (CachesTruth π rendered)
      (((misses keys found).map Call.address).mapM fun call =>
        (rendered call.params).mapError errorOf) := by
    apply Access.batches_yields h.together hsize
    intro call hcall
    rcases List.mem_map.mp hcall with ⟨key, _, heq⟩
    exact ⟨key, heq.symm⟩
  rw [List.mapM_map] at hbatches
  refine hbatches.bind fun raws hraws => ?_
  have hkeep : (Client.keepAll ((misses keys found).zip raws)).Yields (CachesTruth π rendered)
      (((misses keys found).zip raws).mapM fun (_, raw) =>
        decodeResult Result.address "get_destination_address" raw) := by
    apply keepAll_yields
    intro key raw hmem address haddress
    have hraw := List.forall₂_zip (Results.mapM_eq_ok_iff.mp hraws) hmem
    exact Results.bind_eq_ok_iff.mpr ⟨raw, hraw, haddress⟩
  exact hkeep.bind fun fresh _ => Act.Yields.pure (fillBlanks found fresh)

theorem addresses_run (h : a.GivesAddresses rendered) (hsize : a.chunkSize < 2 ^ 64)
    (keys : List RenderKey) {c : Client π} (hc : CachesTruth π rendered c) :
    (a.addresses keys c).answer = addressesGiven rendered keys (keys.map c.cache.find?) ∧
      CachesTruth π rendered (a.addresses keys c).state := by
  have hget := getAll_answer keys c
  have hcache : CachesTruth π rendered
      (Client.withCache (fun cache => cache.getAll keys) c).state :=
    AddressCache.getAll_faithful hc keys
  unfold Access.addresses
  rw [(Act.bind_of_ok _ hget).1, (Act.bind_of_ok _ hget).2]
  by_cases hnone : (misses keys (keys.map c.cache.find?)).isEmpty = true
  · rw [if_pos hnone]
    unfold addressesGiven
    rw [List.isEmpty_iff.mp hnone]
    exact ⟨rfl, hcache⟩
  · rw [if_neg hnone]
    exact askMisses_yields h hsize keys _ _ hcache

/-- Several addresses are given if each of them is, hits and misses alike. -/
theorem addresses_ok_iff (h : a.GivesAddresses rendered) (hsize : a.chunkSize < 2 ^ 64)
    {keys : List RenderKey} {c : Client π} (hc : CachesTruth π rendered c)
    {addresses : List String} :
    (a.addresses keys c).answer = .ok addresses ↔
      List.Forall₂ (Gives rendered) keys addresses := by
  rw [(addresses_run h hsize keys hc).1]
  exact addressesGiven_ok_iff hc

end Lookups

end Rpc
end WalletLedger
