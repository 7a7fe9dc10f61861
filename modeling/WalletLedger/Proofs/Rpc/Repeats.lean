import WalletLedger.Proofs.Rpc.Alignment
import WalletLedger.Proofs.Rpc.Runs

/-!
# Asking again

Whatever the cache holds when several addresses are looked up, they are at its front
afterwards: each of them is moved or put there, and what is pushed out is older than all of
them.  So as long as the cache has room for all, asking for them again asks no peer.
-/

namespace WalletLedger
namespace Rpc

/-!
# The front of the cache
-/

namespace AddressCache

/-- These entries have been used after all others. -/
def Leads (front : List (RenderKey × String)) (c : AddressCache) : Prop :=
  front <+: c.entries

variable {c : AddressCache} {front : List (RenderKey × String)} {key : RenderKey}
  {address : String}

theorem leads_nil (c : AddressCache) : Leads [] c :=
  List.nil_prefix

theorem Leads.find? (h : Leads front c) (hnodup : (front.map Prod.fst).Nodup)
    (hmem : (key, address) ∈ front) : c.find? key = some address := by
  rcases h with ⟨rest, hrest⟩
  unfold AddressCache.find?
  rw [← hrest, List.lookup_append, Results.lookup_of_mem hnodup hmem]
  rfl

theorem Leads.without (h : Leads front c) (hkey : key ∉ front.map Prod.fst) :
    front <+: c.without key := by
  rcases h with ⟨rest, hrest⟩
  have hfront : (front.filter fun e => e.1 != key) = front := by
    rw [List.filter_eq_self]
    intro e he
    exact bne_iff_ne.mpr fun heq => hkey (heq ▸ List.mem_map_of_mem he)
  unfold AddressCache.without
  rw [← hrest, List.filter_append, hfront]
  exact List.prefix_append _ _

theorem Leads.get (h : Leads front c) (hkey : key ∉ front.map Prod.fst)
    (hfind : c.find? key = some address) : Leads ((key, address) :: front) (c.get key).2 := by
  unfold AddressCache.get
  rw [hfind]
  exact List.cons_prefix_cons.mpr ⟨rfl, h.without hkey⟩

/-- An entry that is put in pushes out no entry of a front that leaves room for it. -/
theorem Leads.put (h : Leads front c) (hkey : key ∉ front.map Prod.fst)
    (hroom : front.length < capacity) : Leads ((key, address) :: front) (c.put key address) := by
  refine List.prefix_take_iff.mpr ⟨?_, hroom⟩
  exact List.cons_prefix_cons.mpr ⟨rfl, h.without hkey⟩

theorem get_snd_of_miss (h : c.find? key = none) : (c.get key).2 = c := by
  unfold AddressCache.get
  rw [h]

theorem find?_getAll (keys : List RenderKey) (k : RenderKey) :
    (c.getAll keys).2.find? k = c.find? k := by
  induction keys generalizing c with
  | nil => rfl
  | cons key rest ih =>
      change ((c.get key).2.getAll rest).2.find? k = _
      rw [ih, find?_get]

end AddressCache

/-!
# Hits
-/

def hits (keys : List RenderKey) (found : List (Option String)) : List (RenderKey × String) :=
  (keys.zip found).filterMap fun (key, address) => address.map fun address => (key, address)

theorem hits_cons_some (key : RenderKey) (keys : List RenderKey) (address : String)
    (found : List (Option String)) :
    hits (key :: keys) (some address :: found) = (key, address) :: hits keys found := rfl

theorem hits_cons_none (key : RenderKey) (keys : List RenderKey)
    (found : List (Option String)) :
    hits (key :: keys) (none :: found) = hits keys found := rfl

theorem perm_zip_fillBlanks {keys : List RenderKey} {found : List (Option String)}
    {fresh : List String} (hfound : found.length = keys.length)
    (hfresh : fresh.length = (misses keys found).length) :
    (hits keys found ++ (misses keys found).zip fresh).Perm
      (keys.zip (fillBlanks found fresh)) := by
  induction keys generalizing found fresh with
  | nil => exact .refl _
  | cons key keys ih =>
      cases found with
      | nil => cases hfound
      | cons address found =>
          have hrest : found.length = keys.length := Nat.succ.inj hfound
          cases address with
          | some address =>
              rw [misses_cons_some] at hfresh
              exact (ih hrest hfresh).cons (key, address)
          | none =>
              rw [misses_cons_none] at hfresh
              cases fresh with
              | nil => cases hfresh
              | cons address fresh =>
                  have hperm := ih hrest (Nat.succ.inj hfresh)
                  exact List.perm_middle.trans (hperm.cons (key, address))

theorem nodup_moved {key : RenderKey} {keys : List RenderKey} {front : List (RenderKey × String)}
    (h : (key :: keys ++ front.map Prod.fst).Nodup) (address : String) :
    key ∉ front.map Prod.fst ∧ (keys ++ ((key, address) :: front).map Prod.fst).Nodup := by
  rw [List.cons_append, List.nodup_cons] at h
  constructor
  · exact fun hmem => h.1 (List.mem_append_right _ hmem)
  · rw [List.map_cons, List.nodup_middle, List.nodup_cons]
    exact h

theorem AddressCache.Leads.getAll {c : AddressCache} {front : List (RenderKey × String)}
    (h : Leads front c) {keys : List RenderKey} (hnodup : (keys ++ front.map Prod.fst).Nodup) :
    Leads ((hits keys (keys.map c.find?)).reverse ++ front) (c.getAll keys).2 := by
  induction keys generalizing c front with
  | nil => exact h
  | cons key rest ih =>
      change Leads _ ((c.get key).2.getAll rest).2
      have hsame : (c.get key).2.find? = c.find? := funext (find?_get key)
      cases hfind : c.find? key with
      | none =>
          rw [List.map_cons, hfind, hits_cons_none, get_snd_of_miss hfind]
          exact ih h (List.nodup_cons.mp hnodup).2
      | some address =>
          rcases nodup_moved hnodup address with ⟨hkey, hmoved⟩
          have hrest := ih (h.get hkey hfind) hmoved
          rw [hsame] at hrest
          rw [List.map_cons, hfind, hits_cons_some, List.reverse_cons, List.append_assoc]
          exact hrest

/-!
# What a lookup leaves in the cache
-/

section Lookups

open AddressCache (Leads)

variable {π : Type} {a : Access π} {c t : Client π}

theorem leads_of_keepAll {front : List (RenderKey × String)} (h : Leads front c.cache)
    {pairs : List (RenderKey × Json)} {fresh : List String}
    (hnodup : (pairs.map Prod.fst ++ front.map Prod.fst).Nodup)
    (hroom : pairs.length + front.length ≤ AddressCache.capacity)
    (hok : (Client.keepAll pairs).Succeeds c fresh t) :
    Leads (((pairs.map Prod.fst).zip fresh).reverse ++ front) t.cache := by
  induction pairs generalizing c front fresh with
  | nil =>
      rw [← hok.2]
      exact h
  | cons pair rest ih =>
      rcases pair with ⟨key, raw⟩
      rcases Act.bind_succeeds_iff.mp hok with ⟨address, r, ⟨_, hr⟩, hkeep⟩
      rcases Act.bind_succeeds_iff.mp hkeep with ⟨_, kept, ⟨_, hkept⟩, hrest⟩
      rcases Act.bind_succeeds_iff.mp hrest with ⟨others, u, hothers, hmade, hu⟩
      cases hmade
      rcases nodup_moved hnodup address with ⟨hkey, hmoved⟩
      rw [List.length_cons] at hroom
      have hput : Leads ((key, address) :: front) kept.cache := by
        rw [← hkept, ← hr]
        exact h.put hkey (by omega)
      have hroom' : rest.length + ((key, address) :: front).length ≤ AddressCache.capacity := by
        rw [List.length_cons]
        omega
      have hsame : u = t := hu
      rw [hsame] at hothers
      rw [List.map_cons, List.zip_cons_cons, List.reverse_cons, List.append_assoc]
      exact ih hput hmoved hroom' hothers

theorem perm_keys_of_lookup {keys : List RenderKey} {found : List (Option String)}
    {fresh : List String} (hfound : found.length = keys.length)
    (hfresh : fresh.length = (misses keys found).length) :
    (misses keys found ++ (hits keys found).reverse.map Prod.fst).Perm keys := by
  have hkeys := (perm_zip_fillBlanks hfound hfresh).map Prod.fst
  rw [List.map_append, List.map_fst_zip hfresh.ge,
    List.map_fst_zip (length_of_fillBlanks hfound hfresh).ge] at hkeys
  exact (((List.reverse_perm _).map Prod.fst).append_left _).trans
    (List.perm_append_comm.trans hkeys)

theorem leads_of_asked {keys : List RenderKey} {found : List (Option String)}
    {addresses : List String} (hnodup : keys.Nodup) (hroom : keys.length ≤ AddressCache.capacity)
    (hfound : found.length = keys.length) (hhits : Leads (hits keys found).reverse c.cache)
    (hok : Act.Succeeds (do
      let raws ← a.batches ((misses keys found).map Call.address)
      let fresh ← Client.keepAll ((misses keys found).zip raws)
      return fillBlanks found fresh) c addresses t) :
    ∃ front, front.Perm (keys.zip addresses) ∧ Leads front t.cache := by
  rcases Act.bind_succeeds_iff.mp hok with ⟨raws, s, ⟨hraws, hs⟩, hkeep⟩
  rcases Act.bind_succeeds_iff.mp hkeep with ⟨fresh, u, hfresh, hmade, hsame⟩
  cases hmade
  have hsame : u = t := hsame
  rw [hsame] at hfresh
  have hleads : Leads (hits keys found).reverse s.cache := by
    have hkept : (a.batches ((misses keys found).map Call.address)).Keeps
        (Client.Caches (Leads (hits keys found).reverse)) := a.batches_keeps _
    rw [← hs]
    exact hkept c hhits
  have hraws : raws.length = (misses keys found).length := by
    rw [Access.length_of_batches hraws, List.length_map]
  have hasked : ((misses keys found).zip raws).map Prod.fst = misses keys found :=
    List.map_fst_zip hraws.ge
  have hlength : fresh.length = (misses keys found).length := by
    rw [length_of_keepAll hfresh.1, List.length_zip, hraws, Nat.min_self]
  have hkeys := perm_keys_of_lookup hfound hlength
  have hkept := leads_of_keepAll hleads (by rw [hasked]; exact hkeys.nodup_iff.mpr hnodup)
    (by
      have hall := hkeys.length_eq
      rw [List.length_append, List.length_map] at hall
      rw [List.length_zip, hraws, Nat.min_self, hall]
      exact hroom) hfresh
  rw [hasked, ← List.reverse_append] at hkept
  exact ⟨_, (List.reverse_perm _).trans (perm_zip_fillBlanks hfound hlength), hkept⟩

/-- After a lookup that succeeds, what was looked up is at the front of the cache. -/
theorem leads_of_addresses {keys : List RenderKey} {addresses : List String}
    (hnodup : keys.Nodup) (hroom : keys.length ≤ AddressCache.capacity)
    (hok : (a.addresses keys).Succeeds c addresses t) :
    ∃ front, front.Perm (keys.zip addresses) ∧ Leads front t.cache := by
  rcases Act.bind_succeeds_iff.mp hok with ⟨found, r, ⟨hanswer, hr⟩, hrest⟩
  rw [getAll_answer] at hanswer
  cases hanswer
  have hfound : (keys.map c.cache.find?).length = keys.length := List.length_map _
  have hhits : Leads (hits keys (keys.map c.cache.find?)).reverse r.cache := by
    have hall : (keys ++ ([] : List (RenderKey × String)).map Prod.fst).Nodup := by
      rw [List.map_nil, List.append_nil]
      exact hnodup
    have hleads := (AddressCache.leads_nil c.cache).getAll hall
    rw [List.append_nil] at hleads
    rw [← hr]
    exact hleads
  by_cases hnone : (misses keys (keys.map c.cache.find?)).isEmpty = true
  · rw [if_pos hnone] at hrest
    have hnone := List.isEmpty_iff.mp hnone
    rcases hrest with ⟨hmade, hsame⟩
    cases hmade
    have hsame : r = t := hsame
    rw [hsame] at hhits
    have hnothing : ([] : List String).length =
        (misses keys (keys.map c.cache.find?)).length := by
      rw [hnone, List.length_nil, List.length_nil]
    have hperm := perm_zip_fillBlanks hfound hnothing
    rw [hnone, List.zip_nil_left, List.append_nil] at hperm
    exact ⟨_, (List.reverse_perm _).trans hperm, hhits⟩
  · rw [if_neg hnone] at hrest
    exact leads_of_asked hnodup hroom hfound hhits hrest

/-!
# Lookups that ask nobody
-/

def Known (cache : AddressCache) (keys : List RenderKey) (addresses : List String) : Prop :=
  List.Forall₂ (fun key address => cache.find? key = some address) keys addresses

theorem known_of_addresses {keys : List RenderKey} {addresses : List String}
    (hnodup : keys.Nodup) (hroom : keys.length ≤ AddressCache.capacity)
    (hok : (a.addresses keys).Succeeds c addresses t) : Known t.cache keys addresses := by
  have hlength : addresses.length = keys.length := Access.length_of_addresses hok.1
  rcases leads_of_addresses hnodup hroom hok with ⟨front, hperm, hleads⟩
  have hfront : (front.map Prod.fst).Nodup := by
    rw [(hperm.map Prod.fst).nodup_iff, List.map_fst_zip hlength.ge]
    exact hnodup
  refine List.forall₂_iff_zip.mpr ⟨hlength.symm, ?_⟩
  intro key address hmem
  exact hleads.find? hfront (hperm.mem_iff.mpr hmem)

theorem exists_known {cache : AddressCache} {keys : List RenderKey}
    (h : ∀ key ∈ keys, ∃ address, cache.find? key = some address) :
    ∃ addresses, Known cache keys addresses := by
  induction keys with
  | nil => exact ⟨[], .nil⟩
  | cons key rest ih =>
      rcases h key List.mem_cons_self with ⟨address, hfind⟩
      rcases ih fun k hk => h k (List.mem_cons_of_mem key hk) with ⟨addresses, hknown⟩
      exact ⟨address :: addresses, .cons hfind hknown⟩

namespace Known

variable {cache : AddressCache} {keys : List RenderKey} {addresses : List String}

theorem find?_getElem? (h : Known cache keys addresses) {i : Nat} {key : RenderKey}
    (hkey : keys[i]? = some key) :
    ∃ address, addresses[i]? = some address ∧ cache.find? key = some address := by
  induction h generalizing i with
  | nil => cases hkey
  | cons hfind _ ih =>
      cases i with
      | zero =>
          cases hkey
          exact ⟨_, rfl, hfind⟩
      | succ i => exact ih hkey

theorem map_find? (h : Known cache keys addresses) :
    keys.map cache.find? = addresses.map some := by
  induction h with
  | nil => rfl
  | cons hfind _ ih => rw [List.map_cons, List.map_cons, hfind, ih]

end Known

theorem misses_map_some (keys : List RenderKey) (addresses : List String) :
    misses keys (addresses.map some) = [] := by
  induction keys generalizing addresses with
  | nil => rfl
  | cons key keys ih =>
      cases addresses with
      | nil => rfl
      | cons address addresses => exact ih addresses

theorem fillBlanks_map_some (addresses : List String) :
    fillBlanks (addresses.map some) [] = addresses := by
  induction addresses with
  | nil => rfl
  | cons address rest ih => exact congrArg (address :: ·) ih

theorem addresses_of_known {keys : List RenderKey} {addresses : List String}
    (h : Known c.cache keys addresses) :
    a.addresses keys c = ⟨.ok addresses, [], { c with cache := (c.cache.getAll keys).2 }⟩ := by
  have hget : Client.withCache (fun cache => cache.getAll keys) c =
      ⟨.ok (addresses.map some), [], { c with cache := (c.cache.getAll keys).2 }⟩ := by
    rw [← h.map_find?, ← AddressCache.getAll_fst]
    rfl
  unfold Access.addresses
  rw [Act.bind_run _ hget, misses_map_some, fillBlanks_map_some]
  rfl

theorem address_of_known {key : RenderKey} {address : String}
    (h : c.cache.find? key = some address) :
    a.address key c = ⟨.ok address, [], { c with cache := (c.cache.get key).2 }⟩ := by
  have hget : Client.withCache (fun cache => cache.get key) c =
      ⟨.ok (some address), [], { c with cache := (c.cache.get key).2 }⟩ := by
    rw [← h, ← AddressCache.get_fst]
    rfl
  unfold Access.address
  rw [Act.bind_run _ hget]
  rfl

end Lookups

/-!
# Lookups over and over
-/

section Repeats

variable {π : Type} {requests : List (Destination × PaymentId)} {n : Network} {c c' : Client π}

inductive AsksAgain (requests : List (Destination × PaymentId)) (n : Network) :
    Client π → Client π → Prop where
  | several {c : Client π} (b : Access π) {again : List (Destination × PaymentId)} :
      again ⊆ requests → AsksAgain requests n c (b.engine.addresses again n c).state
  | one {c : Client π} (b : Access π) {d : Destination} {p : PaymentId} :
      (d, p) ∈ requests → AsksAgain requests n c (b.engine.address d n p c).state

def Remembers (requests : List (Destination × PaymentId)) (n : Network) (c : Client π) : Prop :=
  ∀ d p, (d, p) ∈ requests → ∃ address, c.cache.find? ⟨d, n, p⟩ = some address

theorem Remembers.known (h : Remembers requests n c) {again : List (Destination × PaymentId)}
    (hagain : again ⊆ requests) :
    ∃ addresses, Known c.cache (again.map fun (d, p) => ⟨d, n, p⟩) addresses := by
  apply exists_known
  intro key hkey
  rcases List.mem_map.mp hkey with ⟨⟨d, p⟩, hmem, rfl⟩
  exact h d p (hagain hmem)

theorem Remembers.step (h : Remembers requests n c) (hstep : AsksAgain requests n c c') :
    c'.peer = c.peer ∧ c'.nextId = c.nextId ∧ c'.cache.find? = c.cache.find? := by
  cases hstep with
  | several b hagain =>
      rcases h.known hagain with ⟨addresses, hknown⟩
      have hrun : b.engine.addresses _ n c = _ := addresses_of_known hknown
      rw [hrun]
      exact ⟨rfl, rfl, funext (AddressCache.find?_getAll _)⟩
  | one b hmem =>
      rcases h _ _ hmem with ⟨address, hfind⟩
      have hrun : b.engine.address _ n _ c = _ := address_of_known hfind
      rw [hrun]
      exact ⟨rfl, rfl, funext (AddressCache.find?_get _)⟩

theorem Remembers.run (h : Remembers requests n c)
    (hrun : Relation.ReflTransGen (AsksAgain requests n) c c') :
    c'.peer = c.peer ∧ c'.nextId = c.nextId ∧ c'.cache.find? = c.cache.find? := by
  induction hrun with
  | refl => exact ⟨rfl, rfl, rfl⟩
  | tail _ hstep ih =>
      rcases ih with ⟨hpeer, hnext, hfind⟩
      have hremembers : Remembers requests n _ := fun d p hmem => by
        rw [hfind]
        exact h d p hmem
      rcases hremembers.step hstep with ⟨hpeer', hnext', hfind'⟩
      exact ⟨hpeer'.trans hpeer, hnext'.trans hnext, hfind'.trans hfind⟩

end Repeats

/-- Once a lookup of at most as many addresses as the cache has room for has succeeded, they
come from the cache, in any order, all together or one by one and as often as they are asked
for: whatever peer there is, it is sent nothing, and every address is the one it was. -/
theorem addresses_again {π : Type} (a : Access π) (c : Client π)
    (requests : List (Destination × PaymentId)) (n : Network) (addresses : List String)
    (hdistinct : requests.Nodup) (hroom : requests.length ≤ 10000)
    (hok : (a.engine.addresses requests n c).answer = .ok addresses) :
    let after := (a.engine.addresses requests n c).state
    ∀ t, Relation.ReflTransGen (AsksAgain requests n) after t →
      (t.peer = after.peer ∧ t.nextId = after.nextId) ∧
      (∀ again, again ⊆ requests → ∃ addresses' cache,
        (∀ b : Access π, b.engine.addresses again n t = ⟨.ok addresses', [], { t with cache }⟩) ∧
        addresses'.length = again.length ∧
        ∀ (i j : Nat) request, again[i]? = some request → requests[j]? = some request →
          ∃ address, addresses'[i]? = some address ∧ addresses[j]? = some address) ∧
      ∀ (j : Nat) d p, requests[j]? = some (d, p) → ∃ address cache,
        addresses[j]? = some address ∧
        ∀ b : Access π, b.engine.address d n p t = ⟨.ok address, [], { t with cache }⟩ := by
  intro after t hrun
  have hkeys : (requests.map fun (d, p) => (⟨d, n, p⟩ : RenderKey)).Nodup := by
    refine hdistinct.map ?_
    rintro ⟨d, p⟩ ⟨d', p'⟩ heq
    cases heq
    rfl
  have hknown : Known after.cache (requests.map fun (d, p) => ⟨d, n, p⟩) addresses := by
    refine known_of_addresses hkeys ?_ ⟨hok, rfl⟩
    rw [List.length_map]
    exact hroom
  have hfirst : ∀ {j : Nat} {d : Destination} {p : PaymentId}, requests[j]? = some (d, p) →
      ∃ address, addresses[j]? = some address ∧
        after.cache.find? ⟨d, n, p⟩ = some address := by
    intro j d p hj
    apply hknown.find?_getElem?
    rw [List.getElem?_map, hj]
    rfl
  have hremembers : Remembers requests n after := by
    intro d p hmem
    rcases List.mem_iff_getElem?.mp hmem with ⟨j, hj⟩
    rcases hfirst hj with ⟨address, _, hfind⟩
    exact ⟨address, hfind⟩
  rcases hremembers.run hrun with ⟨hpeer, hnext, hsame⟩
  have hstill : Remembers requests n t := fun d p hmem => by
    rw [hsame]
    exact hremembers d p hmem
  refine ⟨⟨hpeer, hnext⟩, ?_, ?_⟩
  · intro again hagain
    rcases hstill.known hagain with ⟨addresses', hknown'⟩
    refine ⟨addresses', _, fun b => addresses_of_known hknown', ?_, ?_⟩
    · rw [← hknown'.length_eq, List.length_map]
    · intro i j request hi hj
      rcases request with ⟨d, p⟩
      rcases hfirst hj with ⟨address, haddress, hfind⟩
      have hkey : (again.map fun (d, p) => (⟨d, n, p⟩ : RenderKey))[i]? = some ⟨d, n, p⟩ := by
        rw [List.getElem?_map, hi]
        rfl
      rcases hknown'.find?_getElem? hkey with ⟨address', haddress', hfind'⟩
      rw [hsame, hfind] at hfind'
      cases hfind'
      exact ⟨address, haddress', haddress⟩
  · intro j d p hj
    rcases hfirst hj with ⟨address, haddress, hfind⟩
    rw [← hsame] at hfind
    exact ⟨address, _, haddress, fun b => address_of_known hfind⟩

def enteredNext : Destination :=
  { entered with original := some "elsewhere" }

theorem addresses_again_entered :
    ∃ after : Client Unit,
      after = (Host.stubborn.inPairs.engine.addresses [(entered, .zero), (enteredNext, .zero)]
        .testnet (.start () 1)).state ∧
      ∀ b : Access Unit,
        (b.engine.addresses [(enteredNext, .zero), (entered, .zero)] .testnet after).answer =
            .ok ["elsewhere", "somewhere"] ∧
          (b.engine.address entered .testnet .zero after).answer = .ok "somewhere" := by
  have hgives : Host.stubborn.inPairs.GivesAddresses Host.stubborn.renders := Host.givesAddresses rfl
  have hfirst : addressGiven Host.stubborn.renders ⟨entered, .testnet, .zero⟩ = .ok "somewhere" :=
    (Host.tells_address Host.stubborn ⟨entered, .testnet, .zero⟩).read _
  have hnext : addressGiven Host.stubborn.renders ⟨enteredNext, .testnet, .zero⟩ =
      .ok "elsewhere" :=
    (Host.tells_address Host.stubborn ⟨enteredNext, .testnet, .zero⟩).read _
  have hempty : CachesTruth Unit Host.stubborn.renders (.start () 1) :=
    AddressCache.empty_faithful
  have hok : (Host.stubborn.inPairs.engine.addresses [(entered, .zero), (enteredNext, .zero)]
      .testnet (.start () 1)).answer = .ok ["somewhere", "elsewhere"] :=
    (addresses_ok_iff hgives (by decide) hempty).mpr (.cons hfirst (.cons hnext .nil))
  rcases addresses_again _ _ _ _ _ (by decide) (by decide) hok _ .refl with ⟨_, hseveral, hone⟩
  rcases hseveral [(enteredNext, .zero), (entered, .zero)] (by decide) with
    ⟨addresses, cache, hrun, hlength, hplaces⟩
  refine ⟨_, rfl, fun b => ⟨?_, ?_⟩⟩
  · rcases hplaces 0 1 _ rfl rfl with ⟨_, hhead, heq⟩
    cases heq
    rcases hplaces 1 0 _ rfl rfl with ⟨_, hlast, heq⟩
    cases heq
    rcases List.length_eq_two.mp hlength with ⟨x, y, rfl⟩
    cases hhead
    cases hlast
    rw [hrun b]
  · rcases hone 0 entered .zero rfl with ⟨address, cache', haddress, hsingle⟩
    rw [hsingle b]
    cases haddress
    rfl

end Rpc
end WalletLedger
