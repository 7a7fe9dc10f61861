import WalletLedger.Proofs.Api.Server
import WalletLedger.Proofs.History.Shape
import WalletLedger.Proofs.Text.Numeral
import WalletLedger.Proofs.Url.Percent

/-!
# Ways to ask for one record

A record is listed with all others, counted, and found by its place or by its hash.  The
answers are compared as those who ask see them: the list that the service gives decides what
each of the other answers has to be.
-/

namespace WalletLedger

/-!
# Transactions as they are listed
-/

def Json.member? (key : String) : Json → Option Json
  | .object members => members.lookup key
  | _ => none

namespace Api

def hashOf? (transaction : Json) : Option String :=
  match transaction.member? "hash" with
  | some (.string hash) => some hash
  | _ => none

/-- The first of the transactions with the hash stands at place `n`. -/
structure IsFirst (transactions : List Json) (hash : String) (n : Nat) (t : Json) : Prop where
  place : transactions[n]? = some t
  named : hashOf? t = some hash
  earlier : ∀ k < n, ∀ u, transactions[k]? = some u → hashOf? u ≠ some hash

def listed (records : List Record) : List Json :=
  records.map Record.codec.toJson

theorem hashOf?_record (r : Record) : hashOf? (Record.codec.toJson r) = some r.hash := by
  rfl

theorem IsFirst.unique {transactions : List Json} {hash : String} {m n : Nat} {t u : Json}
    (ht : IsFirst transactions hash m t) (hu : IsFirst transactions hash n u) :
    m = n ∧ t = u := by
  have hplace : m = n := by
    rcases Nat.lt_trichotomy m n with hlt | heq | hlt
    · exact absurd ht.named (hu.earlier m hlt t ht.place)
    · exact heq
    · exact absurd hu.named (ht.earlier n hlt u hu.place)
  subst hplace
  exact ⟨rfl, Option.some.inj (ht.place.symm.trans hu.place)⟩

theorem exists_isFirst {transactions : List Json} {hash : String} {n : Nat} {t : Json}
    (ht : transactions[n]? = some t) (hnamed : hashOf? t = some hash) :
    ∃ first ≤ n, ∃ u, IsFirst transactions hash first u := by
  induction n using Nat.strongRecOn generalizing t with
  | _ n ih =>
      -- Any earlier place with the hash is taken instead, until there is none.
      by_cases hearlier : ∃ k < n, ∃ u, transactions[k]? = some u ∧ hashOf? u = some hash
      · rcases hearlier with ⟨k, hk, u, hu, hu'⟩
        rcases ih k hk hu hu' with ⟨first, hfirst, v, hv⟩
        exact ⟨first, Nat.le_trans hfirst (Nat.le_of_lt hk), v, hv⟩
      · refine ⟨n, Nat.le_refl n, t, ht, hnamed, ?_⟩
        intro k hk u hu hu'
        exact hearlier ⟨k, hk, u, hu, hu'⟩

theorem isFirst_of_byHash {h : History} {hash : String} {record : Record}
    (hfound : h.byHash hash = some record) :
    ∃ n, IsFirst (listed h.records) hash n (Record.codec.toJson record) := by
  rcases List.find?_eq_some_iff_append.mp hfound with ⟨hrecord, before, after, hsplit, hbefore⟩
  refine ⟨before.length, ?_, ?_, ?_⟩
  · simp [listed, hsplit]
  · rw [hashOf?_record, beq_iff_eq.mp hrecord]
  · intro k hk u hu
    have hplace : (listed before)[k]? = some u := by
      rw [← hu, hsplit, listed, listed, List.map_append, List.getElem?_append_left (by simpa)]
    rcases List.mem_map.mp (List.mem_of_getElem? hplace) with ⟨earlier, hmem, rfl⟩
    rw [hashOf?_record]
    intro heq
    have hother := hbefore earlier hmem
    simp [Option.some.inj heq] at hother

theorem hashOf?_ne_of_byHash {h : History} {hash : String} (hnone : h.byHash hash = none) :
    ∀ t ∈ listed h.records, hashOf? t ≠ some hash := by
  intro t ht
  rcases List.mem_map.mp ht with ⟨record, hmem, rfl⟩
  rw [hashOf?_record]
  intro heq
  have hother := List.find?_eq_none.mp hnone record hmem
  simp [Option.some.inj heq] at hother

theorem byIndex_natCast (h : History) (n : Nat) : h.byIndex n = h.records[n]? :=
  rfl

theorem byIndex_of_neg {h : History} {n : Int} (hn : n < 0) : h.byIndex n = none := by
  cases n with
  | ofNat n => exact absurd hn (Int.not_lt.mpr (Int.natCast_nonneg n))
  | negSucc n => rfl

/-!
# What the answers have to be
-/

open Http (Request Response)

structure AnswersIndex (transactions : List Json) (text : String) (reply : Response) : Prop where
  badRequest : reply.status = ⟨400⟩ ↔ ∀ n, ¬ Text.IsInt64 text.toList n
  ok : reply.status = ⟨200⟩ ↔
    ∃ n : Nat, Text.IsInt64 text.toList n ∧ n < transactions.length
  body : ∀ (n : Nat) (t : Json), Text.IsInt64 text.toList n → transactions[n]? = some t →
    reply.body = .json t
  notFound : reply.status = ⟨404⟩ ↔
    ∃ n : Int, Text.IsInt64 text.toList n ∧ ¬ (0 ≤ n ∧ n < transactions.length)

structure AnswersHash (transactions : List Json) (hash : String) (reply : Response) : Prop where
  ok : reply.status = ⟨200⟩ ↔ ∃ t ∈ transactions, hashOf? t = some hash
  body : ∀ n t, IsFirst transactions hash n t → reply.body = .json t
  notFound : reply.status = ⟨404⟩ ↔ ∀ t ∈ transactions, hashOf? t ≠ some hash

namespace AnswersIndex

variable {transactions : List Json} {text : String} {reply : Response}

theorem of_malformed (h : ∀ n, ¬ Text.IsInt64 text.toList n) (hstatus : reply.status = ⟨400⟩) :
    AnswersIndex transactions text reply where
  badRequest := iff_of_true hstatus h
  ok := iff_of_false (by simp [hstatus]) fun ⟨n, hn, _⟩ => h n hn
  body n _ hn := absurd hn (h n)
  notFound := iff_of_false (by simp [hstatus]) fun ⟨n, hn, _⟩ => h n hn

theorem of_found {n : Nat} {t : Json} (hn : Text.IsInt64 text.toList n)
    (ht : transactions[n]? = some t) (hstatus : reply.status = ⟨200⟩)
    (hbody : reply.body = .json t) : AnswersIndex transactions text reply where
  badRequest := iff_of_false (by simp [hstatus]) fun h => h n hn
  ok := iff_of_true hstatus ⟨n, hn, (List.getElem?_eq_some_iff.mp ht).1⟩
  body m u hm hu := by
    have hplace : m = n := Int.ofNat.inj (hm.unique hn)
    rw [hplace] at hu
    rw [hbody, Option.some.inj (ht.symm.trans hu)]
  notFound := by
    refine iff_of_false (by simp [hstatus]) ?_
    intro h
    rcases h with ⟨m, hm, hout⟩
    have hlt := (List.getElem?_eq_some_iff.mp ht).1
    rw [hm.unique hn] at hout
    omega

theorem of_absent {n : Int} (hn : Text.IsInt64 text.toList n)
    (hout : ¬ (0 ≤ n ∧ n < transactions.length)) (hstatus : reply.status = ⟨404⟩) :
    AnswersIndex transactions text reply where
  badRequest := iff_of_false (by simp [hstatus]) fun h => h n hn
  ok := by
    refine iff_of_false (by simp [hstatus]) ?_
    intro h
    rcases h with ⟨m, hm, hlt⟩
    have hplace := hm.unique hn
    omega
  body m u hm hu := by
    have hlt := (List.getElem?_eq_some_iff.mp hu).1
    have hplace := hm.unique hn
    omega
  notFound := iff_of_true hstatus ⟨n, hn, hout⟩

end AnswersIndex

/-!
# Answers about a history
-/

theorem listed_byIndex (h : History) (n : Int) :
    (∃ k : Nat, n = k ∧ ∃ record, (listed h.records)[k]? = some (Record.codec.toJson record) ∧
        h.byIndex n = some record) ∨
      (¬ (0 ≤ n ∧ n < (listed h.records).length) ∧ h.byIndex n = none) := by
  by_cases hneg : n < 0
  · exact .inr ⟨fun hplace => absurd hneg (Int.not_lt.mpr hplace.1), byIndex_of_neg hneg⟩
  · rcases Int.eq_ofNat_of_zero_le (Int.not_lt.mp hneg) with ⟨k, rfl⟩
    rw [byIndex_natCast]
    cases hrecord : h.records[k]? with
    | some record =>
        refine .inl ⟨k, rfl, record, ?_, rfl⟩
        rw [listed, List.getElem?_map, hrecord]
        rfl
    | none =>
        refine .inr ⟨fun hplace => ?_, rfl⟩
        have hlength := List.getElem?_eq_none_iff.mp hrecord
        have hlt := hplace.2
        rw [listed, List.length_map] at hlt
        omega

theorem answersHash_of_byHash {h : History} {hash : String} {reply : Response}
    (hreply : match h.byHash hash with
      | some record => reply.status = ⟨200⟩ ∧ reply.body = .json (Record.codec.toJson record)
      | none => reply.status = ⟨404⟩) :
    AnswersHash (listed h.records) hash reply := by
  cases hfound : h.byHash hash with
  | some record =>
      simp only [hfound] at hreply
      rcases hreply with ⟨hstatus, hbody⟩
      rcases isFirst_of_byHash hfound with ⟨n, hfirst⟩
      have hlisted : ∃ t ∈ listed h.records, hashOf? t = some hash :=
        ⟨_, List.mem_of_getElem? hfirst.place, hfirst.named⟩
      refine ⟨iff_of_true hstatus hlisted, ?_, iff_of_false (by simp [hstatus]) ?_⟩
      · intro k t ht
        rw [hbody, (ht.unique hfirst).2]
      · intro hnone
        rcases hlisted with ⟨t, ht, hnamed⟩
        exact hnone t ht hnamed
  | none =>
      simp only [hfound] at hreply
      have hnone := hashOf?_ne_of_byHash hfound
      refine ⟨iff_of_false (by simp [hreply]) ?_, ?_, iff_of_true hreply hnone⟩
      · intro hlisted
        rcases hlisted with ⟨t, ht, hnamed⟩
        exact hnone t ht hnamed
      · intro k t ht
        exact absurd ht.named (hnone t (List.mem_of_getElem? ht.place))

/-!
# Pieces that need no encoding

The numeral of a place and the hash of a record stand for themselves in a path.
-/

def IsBare (s : String) : Prop :=
  s ≠ "" ∧ ∀ c ∈ s.toList, Text.IsLowerHex c

namespace IsBare

variable {s : String}

theorem not_mem (h : IsBare s) {c : Char} (hc : ¬ Text.IsLowerHex c) : c ∉ s.toList :=
  fun hmem => hc (h.2 c hmem)

theorem isPiece (h : IsBare s) : Resource.IsPiece s :=
  ⟨h.1, h.not_mem (by decide)⟩

theorem percentText? (h : IsBare s) : Url.percentText? s.toList = some s :=
  Url.percentText?_of_not_mem (h.not_mem (by decide))

theorem path (h : IsBare s) {base : String} {r : Request}
    (hroot : base.toList.head? = some '/') (hbase : ∀ c ∈ base.toList, c ≠ '?' ∧ c ≠ '#')
    (htarget : r.target = base ++ s) : r.path = base ++ s := by
  rw [← htarget]
  apply Request.path_of_target
  · rw [htarget, String.toList_append, List.head?_append, hroot]
    rfl
  · intro c hc
    rw [htarget, String.toList_append] at hc
    rcases List.mem_append.mp hc with hc | hc
    · exact hbase c hc
    · constructor
      · rintro rfl
        exact h.not_mem (by decide) hc
      · rintro rfl
        exact h.not_mem (by decide) hc

end IsBare

theorem isBare_decimal (n : Nat) : IsBare (String.ofList (Text.decimal n)) := by
  constructor
  · intro hempty
    have hnil := congrArg String.toList hempty
    rw [String.toList_ofList] at hnil
    exact Text.decimal_ne_nil n hnil
  · intro c hc
    rw [String.toList_ofList] at hc
    exact .inl (Text.isDigit_of_mem_decimal hc)

theorem isBare_hash {walletHeight : UInt64} {record : Record} (h : record.Shaped walletHeight) :
    IsBare record.hash := by
  refine ⟨?_, h.hash.2⟩
  intro hempty
  have hlength := h.hash.1
  rw [hempty] at hlength
  cases hlength

/-!
# Replies of the service
-/

namespace Server

variable {σ : Type} {server : Server} {service : Service σ} {s : Session σ} {r : Request}

structure Reads (server : Server) (r : Request) (path : String) : Prop where
  token : server.authorizes r = true
  method : r.method = .get
  path : r.path = path

def reply (server : Server) (service : Service σ) (s : Session σ) (r : Request) : Response :=
  ((server.respond r).run service s).result

def Gives (reply : Response) (v : Json) : Prop :=
  reply.status = ⟨200⟩ ∧ reply.body = .json v

theorem respond_of_handle {resource : Resource} {path : String} {handler : Program Response}
    (h : server.Reads r path) (hnames : resource.Names path) (hresource : resource ≠ .refresh)
    (hhandle : server.handle r resource = handler) :
    server.respond r = handler.map (server.finish r) := by
  have hoptions : r.method ≠ .options := by
    rw [h.method]
    nofun
  have haccepts := Resource.accepts_reading hresource (.inl h.method)
  unfold respond
  rw [server.route_of_names (h.path ▸ hnames) hoptions haccepts, hhandle]

theorem reply_of_handle {resource : Resource} {path : String} {handler : Program Response}
    (h : server.Reads r path) (hnames : resource.Names path) (hresource : resource ≠ .refresh)
    (hhandle : server.handle r resource = handler) :
    (server.reply service s r).status = (handler.run service s).result.status ∧
      (server.reply service s r).body = (handler.run service s).result.body := by
  unfold reply
  rw [respond_of_handle h hnames hresource hhandle, Program.map_result, finish_status,
    finish_body, if_neg (by rw [h.method]; nofun)]
  exact ⟨rfl, rfl⟩

theorem reply_history (h : server.Reads r "/api/v1/history") :
    Gives (server.reply service s r) (.object
      [("count", .unsigned (UInt64.ofNat (listed s.history.records).length)),
        ("transactions", .array (listed s.history.records))]) := by
  rw [listed, List.length_map]
  exact reply_of_handle h .history nofun (guarded_of_authorizes h.token listHistory)

theorem reply_count (h : server.Reads r "/api/v1/history/count") :
    Gives (server.reply service s r) (.object
      [("count", .unsigned (UInt64.ofNat (listed s.history.records).length))]) := by
  rw [listed, List.length_map]
  exact reply_of_handle h .count nofun (guarded_of_authorizes h.token getCount)

variable {segment text : String}

theorem withParameter_of_authorizes (h : server.authorizes r = true) {name : String}
    (htext : Url.percentText? segment.toList = some text) (next : String → Program Response) :
    withParameter name segment (fun text => server.guarded r (next text)) = next text := by
  unfold withParameter
  rw [htext]
  exact guarded_of_authorizes h (next text)

theorem reply_byIndex (h : server.Reads r ("/api/v1/history/index/" ++ segment))
    (hpiece : Resource.IsPiece segment) (htext : Url.percentText? segment.toList = some text) :
    AnswersIndex (listed s.history.records) text (server.reply service s r) := by
  have hreply := @reply_of_handle σ server service s r _ _ _ h (.byIndex hpiece) nofun
    (withParameter_of_authorizes h.token htext getByIndex)
  unfold getByIndex at hreply
  cases hread : Text.readInt64 text.toList with
  | error e =>
      simp only [hread] at hreply
      refine .of_malformed ?_ hreply.1
      intro n hn
      rw [Text.readInt64_eq_ok_iff.mpr hn] at hread
      cases hread
  | ok n =>
      have hn := Text.readInt64_eq_ok_iff.mp hread
      simp only [hread, Program.run, HistoryCall.perform] at hreply
      rcases listed_byIndex s.history n with
        ⟨k, rfl, record, hplace, hfound⟩ | ⟨hout, hnone⟩
      · rw [hfound] at hreply
        exact .of_found hn hplace hreply.1 hreply.2
      · rw [hnone] at hreply
        exact .of_absent hn hout hreply.1

theorem reply_byHash (h : server.Reads r ("/api/v1/history/tx/" ++ segment))
    (hpiece : Resource.IsPiece segment) (htext : Url.percentText? segment.toList = some text) :
    AnswersHash (listed s.history.records) text (server.reply service s r) := by
  have hreply := @reply_of_handle σ server service s r _ _ _ h (.byHash hpiece) nofun
    (withParameter_of_authorizes h.token htext getByHash)
  simp only [getByHash, Program.run, HistoryCall.perform] at hreply
  apply answersHash_of_byHash
  cases hfound : s.history.byHash text with
  | some record =>
      rw [hfound] at hreply
      exact hreply
  | none =>
      rw [hfound] at hreply
      exact hreply.1

/-!
# Every record is within reach
-/

open TimedCall

theorem isBare_of_listed (service : Service σ) (calls : List TimedCall) (engineState : σ)
    {n : Nat} {t : Json}
    (ht : (listed (performAll service calls (Session.start engineState)).history.records)[n]? =
      some t) : ∃ hash, hashOf? t = some hash ∧ IsBare hash := by
  rcases List.mem_map.mp (List.mem_of_getElem? ht) with ⟨record, hrecord, rfl⟩
  refine ⟨record.hash, hashOf?_record record, ?_⟩
  -- Nothing is listed before the first success, and then whatever is listed is well shaped.
  rcases @performAll_history σ service calls (Session.start engineState) with
    ⟨_, hkept⟩ | ⟨timing, l, records, ⟨_, _, _, hreconcile, _⟩, hmade⟩
  · rw [hkept] at hrecord
    exact absurd hrecord List.not_mem_nil
  · rw [hmade] at hrecord
    exact isBare_hash ((Engine.describes_of_reconcile hreconcile timing).shaped record hrecord)

theorem reply_decimal {n : Nat} {t : Json} (ht : (listed s.history.records)[n]? = some t)
    (hn : n < 2 ^ 63) (htoken : server.authorizes r = true) (hmethod : r.method = .get)
    (htarget : r.target = "/api/v1/history/index/" ++ String.ofList (Text.decimal n)) :
    Gives (server.reply service s r) t := by
  have hbare := isBare_decimal n
  have hreads : server.Reads r _ :=
    ⟨htoken, hmethod, hbare.path (by decide) (by simp) htarget⟩
  have hanswer : AnswersIndex (listed s.history.records) _ (server.reply service s r) :=
    reply_byIndex hreads hbare.isPiece hbare.percentText?
  have hnumeral : Text.IsInt64 (String.ofList (Text.decimal n)).toList n := by
    rw [String.toList_ofList]
    exact Text.isInt64_decimal hn
  have hlt := (List.getElem?_eq_some_iff.mp ht).1
  exact ⟨hanswer.ok.mpr ⟨n, hnumeral, hlt⟩, hanswer.body n t hnumeral ht⟩

theorem reply_hash {hash : String} {n : Nat} {t : Json}
    (ht : IsFirst (listed s.history.records) hash n t) (hbare : IsBare hash)
    (htoken : server.authorizes r = true) (hmethod : r.method = .get)
    (htarget : r.target = "/api/v1/history/tx/" ++ hash) :
    Gives (server.reply service s r) t := by
  have hreads : server.Reads r _ :=
    ⟨htoken, hmethod, hbare.path (by decide) (by simp) htarget⟩
  have hanswer : AnswersHash (listed s.history.records) _ (server.reply service s r) :=
    reply_byHash hreads hbare.isPiece hbare.percentText?
  exact ⟨hanswer.ok.mpr ⟨t, List.mem_of_getElem? ht.place, ht.named⟩, hanswer.body n t ht⟩

/-- Whatever calls have led to, the list of transactions decides the other answers.  Its length
is counted, as far as a word can count; a place is found when a numeral of it is asked for and
a hash at the first place that has it.  So each transaction is reached by its place, and by its
hash unless it comes after another with the same one. -/
theorem lookups_agree (server : Server) (service : Service σ) (calls : List TimedCall)
    (engineState : σ) :
    let s := performAll service calls (Session.start engineState)
    let reply := server.reply service s
    ∃ transactions : List Json, ∃ count : UInt64,
      (transactions.length < 2 ^ 64 → count.toNat = transactions.length) ∧
      (∀ r, server.Reads r "/api/v1/history" → Gives (reply r)
        (.object [("count", .unsigned count), ("transactions", .array transactions)])) ∧
      (∀ r, server.Reads r "/api/v1/history/count" → Gives (reply r)
        (.object [("count", .unsigned count)])) ∧
      (∀ segment text, Resource.IsPiece segment →
        Url.percentText? segment.toList = some text → ∀ r,
          (server.Reads r ("/api/v1/history/index/" ++ segment) →
            AnswersIndex transactions text (reply r)) ∧
          (server.Reads r ("/api/v1/history/tx/" ++ segment) →
            AnswersHash transactions text (reply r))) ∧
      ∀ n t, transactions[n]? = some t →
        (n < 2 ^ 63 → ∀ headers, let r : Request := ⟨.get, "/api/v1/history/index/" ++
            String.ofList (Text.decimal n), headers⟩
          server.authorizes r = true → Gives (reply r) t) ∧
        ∃ hash, hashOf? t = some hash ∧ ∃ first ≤ n, ∃ u, IsFirst transactions hash first u ∧
          (∀ headers, let r : Request := ⟨.get, "/api/v1/history/tx/" ++ hash, headers⟩
            server.authorizes r = true → Gives (reply r) u) ∧
          (first = n ↔ ∀ k < n, ∀ v, transactions[k]? = some v → hashOf? v ≠ some hash) := by
  intro s reply
  refine ⟨listed s.history.records, UInt64.ofNat (listed s.history.records).length, ?_,
    fun r hr => reply_history hr, fun r hr => reply_count hr, ?_, ?_⟩
  · exact fun hcountable => UInt64.toNat_ofNat_of_lt' hcountable
  · intro segment text hpiece htext r
    exact ⟨fun hr => reply_byIndex hr hpiece htext, fun hr => reply_byHash hr hpiece htext⟩
  · intro n t ht
    constructor
    · intro hn headers r htoken
      exact reply_decimal ht hn htoken rfl rfl
    · rcases isBare_of_listed service calls engineState ht with ⟨hash, hnamed, hbare⟩
      rcases exists_isFirst ht hnamed with ⟨first, hle, u, hfirst⟩
      refine ⟨hash, hnamed, first, hle, u, hfirst, ?_, ?_⟩
      · intro headers r htoken
        exact reply_hash hfirst hbare htoken rfl rfl
      · constructor
        · intro heq
          rw [← heq]
          exact hfirst.earlier
        · intro hearlier
          exact (hfirst.unique ⟨ht, hnamed, hearlier⟩).1

end Server
end Api
end WalletLedger
