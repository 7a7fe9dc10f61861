import WalletLedger.Proofs.Results
import WalletLedger.Proofs.Text.Blank
import WalletLedger.Rpc.Connection

/-!
# Settling credentials

A name and a password that are given together count before any file.  A cookie file counts
only where neither is given, and of it only the first line, which has to be a name and a
password with a colon between them once the blanks around it are gone.
-/

namespace WalletLedger
namespace Rpc
namespace Credentials

/-!
# The first of several marks
-/

theorem span_of_not_mem {mark : Char} {front back : List Char} (h : mark ∉ front) :
    (front ++ mark :: back).takeWhile (· != mark) = front ∧
      (front ++ mark :: back).dropWhile (· != mark) = mark :: back := by
  have hfront : ∀ c ∈ front, (c != mark) = true := by
    intro c hc
    rw [bne_iff_ne]
    exact fun heq => h (heq ▸ hc)
  have hmark : ¬ (mark != mark) = true := by
    rw [bne_self_eq_false]
    exact Bool.false_ne_true
  have htake := @List.takeWhile_cons_of_neg Char (· != mark) mark back hmark
  have hdrop := @List.dropWhile_cons_of_neg Char (· != mark) mark back hmark
  rw [List.takeWhile_append_of_pos hfront, List.dropWhile_append_of_pos hfront, htake, hdrop,
    List.append_nil]
  exact ⟨rfl, rfl⟩

theorem not_mem_takeWhile (mark : Char) (cs : List Char) : mark ∉ cs.takeWhile (· != mark) := by
  intro hmem
  have hne : (mark != mark) = true := @List.mem_takeWhile_imp Char (· != mark) cs mark hmem
  exact bne_iff_ne.mp hne rfl

theorem dropWhile_eq_nil_or_cons (mark : Char) (cs : List Char) :
    cs.dropWhile (· != mark) = [] ∨ ∃ rest, cs.dropWhile (· != mark) = mark :: rest := by
  have hhead := List.head?_dropWhile_not (· != mark) cs
  cases hrest : cs.dropWhile (· != mark) with
  | nil => exact .inl rfl
  | cons c rest =>
      rw [hrest] at hhead
      have heq : c = mark := bne_eq_false_iff_eq.mp hhead
      exact .inr ⟨rest, by rw [heq]⟩

/-!
# First lines
-/

/-- The line is all of the text, or all in front of its first line feed. -/
structure FirstLine (content line : List Char) : Prop where
  unbroken : '\n' ∉ line
  begins : content = line ∨ ∃ rest, content = line ++ '\n' :: rest

theorem firstLine_of_begins {content line : List Char} (h : FirstLine content line) :
    firstLine content = line := by
  unfold firstLine
  rcases h.begins with rfl | ⟨rest, rfl⟩
  · rw [List.takeWhile_eq_self_iff]
    intro c hc
    rw [bne_iff_ne]
    exact fun heq => h.unbroken (heq ▸ hc)
  · exact (span_of_not_mem h.unbroken).1

theorem firstLine_begins (content : List Char) : FirstLine content (firstLine content) := by
  refine ⟨not_mem_takeWhile '\n' content, ?_⟩
  have hparts : content = firstLine content ++ content.dropWhile (· != '\n') :=
    List.takeWhile_append_dropWhile.symm
  rcases dropWhile_eq_nil_or_cons '\n' content with hnone | ⟨rest, hrest⟩
  · rw [hnone, List.append_nil] at hparts
    exact .inl hparts
  · rw [hrest] at hparts
    exact .inr ⟨rest, hparts⟩

theorem firstLine_append {line rest : List Char} (h : '\n' ∉ line) :
    firstLine (line ++ '\n' :: rest) = firstLine line := by
  rw [firstLine_of_begins ⟨h, .inr ⟨rest, rfl⟩⟩, firstLine_of_begins ⟨h, .inl rfl⟩]

/-!
# Pairs
-/

structure Proper (c : Credentials) : Prop where
  user_ne : c.user ≠ ""
  user_plain : ':' ∉ c.user.toList
  pass_ne : c.pass ≠ ""

theorem toList_basic (c : Credentials) :
    c.basic.toList = c.user.toList ++ ':' :: c.pass.toList := by
  unfold basic
  rw [String.toList_append, String.toList_append, List.append_assoc]
  rfl

theorem ofPair?_eq_some_iff {cs : List Char} {c : Credentials} :
    ofPair? cs = some c ↔ cs = c.basic.toList ∧ c.Proper := by
  unfold ofPair?
  constructor
  · intro h
    split at h
    · next u user p pass hfront hback =>
        cases h
        have hparts : cs = cs.takeWhile (· != ':') ++ cs.dropWhile (· != ':') :=
          List.takeWhile_append_dropWhile.symm
        have hplain := not_mem_takeWhile ':' cs
        rw [hfront] at hplain
        rw [hfront, hback] at hparts
        refine ⟨?_, ?_, ?_, ?_⟩
        · rw [toList_basic, String.toList_ofList, String.toList_ofList]
          exact hparts
        · exact fun heq => List.cons_ne_nil u user (String.ofList_eq_empty_iff.mp heq)
        · rw [String.toList_ofList]
          exact hplain
        · exact fun heq => List.cons_ne_nil p pass (String.ofList_eq_empty_iff.mp heq)
    · cases h
  · intro h
    rcases h with ⟨rfl, hproper⟩
    rcases @span_of_not_mem ':' c.user.toList c.pass.toList hproper.user_plain with
      ⟨hfront, hback⟩
    rcases List.exists_cons_of_ne_nil (mt String.toList_eq_nil_iff.mp hproper.user_ne) with
      ⟨u, user, huser⟩
    rcases List.exists_cons_of_ne_nil (mt String.toList_eq_nil_iff.mp hproper.pass_ne) with
      ⟨p, pass, hpass⟩
    rw [toList_basic, hfront, hback, huser, hpass]
    change some ⟨String.ofList (u :: user), String.ofList (p :: pass)⟩ = some c
    rw [← huser, ← hpass, String.ofList_toList, String.ofList_toList]

theorem parts_of_basic {c : Credentials} (h : c.Proper) {user pass : String}
    (heq : c.basic = user ++ ":" ++ pass) (hplain : ':' ∉ user.toList) :
    user = c.user ∧ pass = c.pass := by
  have hlist : c.user.toList ++ ':' :: c.pass.toList = user.toList ++ ':' :: pass.toList := by
    rw [← toList_basic, heq]
    exact toList_basic ⟨user, pass⟩
  rcases @span_of_not_mem ':' c.user.toList c.pass.toList h.user_plain with ⟨hfront, hback⟩
  rcases @span_of_not_mem ':' user.toList pass.toList hplain with ⟨hfront', hback'⟩
  rw [hlist] at hfront hback
  constructor
  · exact String.toList_inj.mp (hfront'.symm.trans hfront)
  · exact String.toList_inj.mp (List.cons.inj (hback'.symm.trans hback)).2

/-!
# Cookies
-/

/-- The first line of a text, without the blanks around it, is a name and a password with a
colon between them. -/
structure Holds (content : String) (c : Credentials) : Prop where
  proper : c.Proper
  line : ∃ line, FirstLine content.toList line ∧
    Text.Trims line (c.user ++ ":" ++ c.pass).toList

theorem ofContent?_eq_some_iff {content : String} {c : Credentials} :
    ofContent? content = some c ↔ Holds content c := by
  unfold ofContent?
  rw [ofPair?_eq_some_iff, Text.trimBlank_eq_iff]
  constructor
  · intro h
    exact ⟨h.2, _, firstLine_begins content.toList, h.1⟩
  · intro h
    rcases h.line with ⟨line, hline, htrims⟩
    rw [firstLine_of_begins hline]
    exact ⟨htrims, h.proper⟩

example : ofContent? " keeper:open:sesame\r\nother:words" = some ⟨"keeper", "open:sesame"⟩ := by
  decide

theorem ofContent?_append {line : String} (h : '\n' ∉ line.toList) (rest : String) :
    ofContent? (line ++ "\n" ++ rest) = ofContent? line := by
  have hlist : (line ++ "\n" ++ rest).toList = line.toList ++ '\n' :: rest.toList := by
    rw [String.toList_append, String.toList_append, List.append_assoc]
    rfl
  unfold ofContent?
  rw [hlist, firstLine_append h]

/-!
# Settling
-/

/-- What settling credentials comes to when an engine is set up, where all that is wrong with
them is invalid data. -/
def settled (user pass : Option String) (cookie : Option CookieFile) :
    Except CoreError (Option Credentials) :=
  (resolve user pass cookie).mapError fun e => .invalidData (.credentials e)

theorem settled_of_content (path content : String) :
    settled none none (some ⟨path, .ok content⟩) =
      match ofContent? content with
      | some c => .ok (some c)
      | none => .error (.invalidData (.credentials (.malformed path))) := by
  unfold settled resolve ofCookie
  simp only
  cases ofContent? content with
  | some c => rfl
  | none => rfl

theorem settled_eq_ok_iff {path content : String} {c : Credentials} :
    settled none none (some ⟨path, .ok content⟩) = .ok (some c) ↔ Holds content c := by
  rw [settled_of_content, ← ofContent?_eq_some_iff]
  cases ofContent? content with
  | some found => exact ⟨fun h => Except.ok.inj h, fun h => congrArg Except.ok h⟩
  | none => exact iff_of_false nofun nofun

theorem settled_eq_malformed_iff {path content : String} :
    settled none none (some ⟨path, .ok content⟩) =
      .error (.invalidData (.credentials (.malformed path))) ↔ ¬ ∃ c, Holds content c := by
  rw [settled_of_content]
  simp only [← ofContent?_eq_some_iff]
  cases ofContent? content with
  | some found => exact iff_of_false nofun (not_not_intro ⟨found, rfl⟩)
  | none => exact iff_of_true rfl nofun

theorem settled_of_ofSettings {s : Settings} {c : Connection}
    (h : Connection.ofSettings s = .ok c) :
    settled s.user s.pass s.cookie = .ok c.credentials := by
  unfold Connection.ofSettings at h
  split at h
  · cases h
  · rcases Results.bind_eq_ok_iff.mp h with ⟨credentials, hsettled, hrest⟩
    rcases Results.bind_eq_ok_iff.mp hrest with ⟨endpoint, _, hmade⟩
    split at hmade
    · cases hmade
    · cases hmade
      exact hsettled

theorem ofSettings_of_settled_error {s : Settings} {e : CoreError} (hchunk : s.chunkSize ≠ 0)
    (h : settled s.user s.pass s.cookie = .error e) : Connection.ofSettings s = .error e := by
  unfold settled at h
  unfold Connection.ofSettings
  rw [dif_neg hchunk, h]
  rfl

/-- Credentials are accepted in the documented forms and in no other: as a pair, whatever the
cookie file is; not at all; or, if neither half is given, in the first line of a readable
cookie file.  Whatever else there is, is invalid data, and no engine is set up with it.  What
basic authentication sends for the pair in a cookie file is told apart by its first colon, and
lines behind the first make no difference. -/
theorem settled_in_documented_forms :
    (∀ user pass cookie, settled (some user) (some pass) cookie = .ok (some ⟨user, pass⟩)) ∧
    (∀ half cookie,
      settled (some half) none cookie = .error (.invalidData (.credentials .incomplete)) ∧
      settled none (some half) cookie = .error (.invalidData (.credentials .incomplete))) ∧
    settled none none none = .ok none ∧
    (∀ path reason, settled none none (some ⟨path, .error reason⟩) =
      .error (.invalidData (.credentials (.unreadable path reason)))) ∧
    (∀ path content,
      (∀ c, settled none none (some ⟨path, .ok content⟩) = .ok (some c) ↔ Holds content c) ∧
      (settled none none (some ⟨path, .ok content⟩) =
        .error (.invalidData (.credentials (.malformed path))) ↔ ¬ ∃ c, Holds content c)) ∧
    (∀ content c, Holds content c → ∀ user pass : String,
      (c.basic = user ++ ":" ++ pass ∧ ':' ∉ user.toList ↔ user = c.user ∧ pass = c.pass)) ∧
    (∀ path line rest : String, '\n' ∉ line.toList →
      settled none none (some ⟨path, .ok (line ++ "\n" ++ rest)⟩) =
        settled none none (some ⟨path, .ok line⟩)) ∧
    ∀ s : Settings,
      (∀ c, Connection.ofSettings s = .ok c →
        settled s.user s.pass s.cookie = .ok c.credentials) ∧
      (s.chunkSize ≠ 0 → ∀ e, settled s.user s.pass s.cookie = .error e →
        Connection.ofSettings s = .error e) := by
  refine ⟨fun _ _ _ => rfl, fun _ _ => ⟨rfl, rfl⟩, rfl, fun _ _ => rfl, ?_, ?_, ?_, ?_⟩
  · intro path content
    exact ⟨fun _ => settled_eq_ok_iff, settled_eq_malformed_iff⟩
  · intro content c hholds user pass
    constructor
    · intro h
      exact parts_of_basic hholds.proper h.1 h.2
    · intro h
      rw [h.1, h.2]
      exact ⟨rfl, hholds.proper.user_plain⟩
  · intro path line rest hline
    rw [settled_of_content, settled_of_content, ofContent?_append hline]
  · intro s
    exact ⟨fun _ => settled_of_ofSettings, fun hchunk _ => ofSettings_of_settled_error hchunk⟩

end Credentials
end Rpc
end WalletLedger
