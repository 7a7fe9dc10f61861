import Mathlib
import WalletLedger.Api.Resource

/-!
# Paths of resources

A path is its pieces with slashes between them, so a resource is named by one path, or by
one for each parameter.
-/

namespace WalletLedger

theorem Http.Request.path_of_target {r : Http.Request} (hroot : r.target.toList.head? = some '/')
    (hplain : ∀ c ∈ r.target.toList, c ≠ '?' ∧ c ≠ '#') : r.path = r.target := by
  have hkept : r.target.toList.takeWhile (fun c => !(c == '?' || c == '#')) =
      r.target.toList := by
    rw [List.takeWhile_eq_self_iff]
    intro c hc
    simp [hplain c hc]
  cases hcs : r.target.toList with
  | nil =>
      rw [hcs] at hroot
      cases hroot
  | cons c cs =>
      rw [hcs] at hroot hkept
      cases hroot
      unfold path
      simp only [hcs, hkept]
      rw [← hcs, String.ofList_toList]

namespace Api
namespace Resource

/-!
# Pieces
-/

def IsPiece (s : String) : Prop :=
  s ≠ "" ∧ '/' ∉ s.toList

theorem pieces_append (a b : String) : pieces (a ++ "/" ++ b) = pieces a ++ pieces b := by
  have hlist : (a ++ "/" ++ b).toList = a.toList ++ '/' :: b.toList := by
    rw [String.toList_append, String.toList_append, List.append_assoc]
    rfl
  unfold pieces
  rw [hlist, List.splitOn_append_cons_self, List.map_append]

theorem pieces_of_not_mem {s : String} (h : '/' ∉ s.toList) : pieces s = [s] := by
  unfold pieces
  rw [List.splitOn_eq_singleton h, List.map_singleton, String.ofList_toList]

theorem pieces_injective : Function.Injective pieces := by
  intro a b h
  have hsplit : a.toList.splitOn '/' = b.toList.splitOn '/' :=
    List.map_injective_iff.mpr (fun _ _ heq => String.ofList_injective heq) h
  have hjoin := congrArg (List.intercalate ['/']) hsplit
  rw [List.intercalate_splitOn, List.intercalate_splitOn] at hjoin
  exact String.toList_inj.mp hjoin

theorem not_mem_of_mem_splitOn {cs piece : List Char} (h : piece ∈ cs.splitOn '/') :
    '/' ∉ piece := by
  induction cs generalizing piece with
  | nil =>
      rw [List.splitOn_nil, List.mem_singleton] at h
      rw [h]
      exact List.not_mem_nil
  | cons c cs ih =>
      rw [List.splitOn_cons_eq_if_modifyHead] at h
      split at h
      · rcases List.mem_cons.mp h with rfl | h
        · exact List.not_mem_nil
        · exact ih h
      · next hc =>
          rcases List.exists_cons_of_ne_nil (List.splitOn_ne_nil '/' cs) with ⟨first, rest, hpieces⟩
          rw [hpieces, List.modifyHead_cons] at h
          rcases List.mem_cons.mp h with rfl | h
          · have hfirst : '/' ∉ first := ih (hpieces ▸ List.mem_cons_self)
            intro hmem
            rcases List.mem_cons.mp hmem with heq | hmem
            · exact hc (beq_iff_eq.mpr heq.symm)
            · exact hfirst hmem
          · exact ih (hpieces ▸ List.mem_cons_of_mem first h)

theorem not_mem_of_mem_pieces {path piece : String} (h : piece ∈ pieces path) :
    '/' ∉ piece.toList := by
  rcases List.mem_map.mp h with ⟨cs, hcs, rfl⟩
  rw [String.toList_ofList]
  exact not_mem_of_mem_splitOn hcs

/-!
# Names
-/

/-- The paths under which there is something; a parameter is the last piece of its path. -/
inductive Names : Resource → String → Prop where
  | health : Names .health "/api/v1/health"
  | history : Names .history "/api/v1/history"
  | count : Names .count "/api/v1/history/count"
  | status : Names .status "/api/v1/history/status"
  | refresh : Names .refresh "/api/v1/history/refresh"
  | byIndex {s : String} : IsPiece s → Names (.byIndex s) ("/api/v1/history/index/" ++ s)
  | byHash {s : String} : IsPiece s → Names (.byHash s) ("/api/v1/history/tx/" ++ s)

theorem Names.eq_of_refresh {path : String} (h : Names .refresh path) :
    path = "/api/v1/history/refresh" := by
  cases h
  rfl

theorem pieces_byIndex {s : String} (h : '/' ∉ s.toList) :
    pieces ("/api/v1/history/index/" ++ s) = ["", "api", "v1", "history", "index", s] := by
  change pieces ("/api/v1/history/index" ++ "/" ++ s) = _
  rw [pieces_append, pieces_of_not_mem h]
  rfl

theorem pieces_byHash {s : String} (h : '/' ∉ s.toList) :
    pieces ("/api/v1/history/tx/" ++ s) = ["", "api", "v1", "history", "tx", s] := by
  change pieces ("/api/v1/history/tx" ++ "/" ++ s) = _
  rw [pieces_append, pieces_of_not_mem h]
  rfl

theorem ofPath?_of_names {r : Resource} {path : String} (h : Names r path) :
    ofPath? path = some r := by
  unfold ofPath?
  cases h with
  | health => rfl
  | history => rfl
  | count => rfl
  | status => rfl
  | refresh => rfl
  | byIndex hs =>
      rw [pieces_byIndex hs.2]
      exact if_neg fun hempty => hs.1 (String.isEmpty_iff.mp hempty)
  | byHash hs =>
      rw [pieces_byHash hs.2]
      exact if_neg fun hempty => hs.1 (String.isEmpty_iff.mp hempty)

theorem isPiece_of_mem_pieces {path s : String} (h : s ∈ pieces path)
    (hfull : ¬ s.isEmpty = true) : IsPiece s :=
  ⟨fun hempty => hfull (String.isEmpty_iff.mpr hempty), not_mem_of_mem_pieces h⟩

theorem names_of_ofPath? {r : Resource} {path : String} (h : ofPath? path = some r)
    (hknown : r ≠ .unknown) : Names r path := by
  unfold ofPath? at h
  split at h
  · next rest hpieces =>
      -- One case for each row of the table; in each the pieces determine the path.
      unfold ofPieces? at h
      split at h
      · cases h
        exact absurd rfl hknown
      · cases h
      · cases h
        rw [@pieces_injective path "/api/v1/health" hpieces]
        exact .health
      · cases h
        rw [@pieces_injective path "/api/v1/history" hpieces]
        exact .history
      · cases h
        rw [@pieces_injective path "/api/v1/history/count" hpieces]
        exact .count
      · cases h
        rw [@pieces_injective path "/api/v1/history/status" hpieces]
        exact .status
      · cases h
        rw [@pieces_injective path "/api/v1/history/refresh" hpieces]
        exact .refresh
      · next parameter =>
          split at h
          · cases h
            exact absurd rfl hknown
          · next hfull =>
              cases h
              have hmem : parameter ∈ pieces path := by simp [hpieces]
              have hpiece := isPiece_of_mem_pieces hmem hfull
              rw [← pieces_byIndex hpiece.2] at hpieces
              rw [pieces_injective hpieces]
              exact .byIndex hpiece
      · next parameter =>
          split at h
          · cases h
            exact absurd rfl hknown
          · next hfull =>
              cases h
              have hmem : parameter ∈ pieces path := by simp [hpieces]
              have hpiece := isPiece_of_mem_pieces hmem hfull
              rw [← pieces_byHash hpiece.2] at hpieces
              rw [pieces_injective hpieces]
              exact .byHash hpiece
      · cases h
        exact absurd rfl hknown
  · cases h

/-!
# Methods
-/

theorem accepts_reading {r : Resource} (hr : r ≠ .refresh) {m : Http.Method}
    (hm : m = .get ∨ m = .head) : r.accepts m = true := by
  rcases hm with rfl | rfl
  · cases r with
    | refresh => exact absurd rfl hr
    | _ => rfl
  · cases r with
    | refresh => exact absurd rfl hr
    | _ => rfl

end Resource
end Api
end WalletLedger
