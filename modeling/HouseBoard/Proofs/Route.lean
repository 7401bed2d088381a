/-
HouseBoard.Proofs.Route — routes, and the paths that lead to views.

Each view has one route, which leads back to it and to no other view; a device may also be named
with zeros or a plus sign in front of its number (Section 1).  A path leads to a view exactly if
it goes on after the collection of views (Section 2), and what a caller gets there depends on
the view that is named, not on how (Section 3).
-/
import HouseBoard.Board.Answer
import HouseBoard.Proofs.Digits

namespace HouseBoard

/-! ## Section 1 — routes -/

/-- The number of a device is read from its digits, with zeros and a plus sign in
front or without. -/
theorem DeviceRef.ofChars?_padded (d : DeviceRef) {sign : List Char}
    (hsign : sign = [] ∨ sign = ['+']) (width : Nat) :
    ofChars? (sign ++ Digits.padded width d.number.toNat) = some d := by
  have hread := Digits.read?_padded width d.number.toNat
  have hplus : Digits.readPlus? 10 (sign ++ Digits.padded width d.number.toNat) =
      some d.number.toNat := by
    rcases hsign with rfl | rfl
    · rw [List.nil_append]
      unfold Digits.readPlus?
      split
      · rename_i cs heq
        have hmem : '+' ∈ Digits.padded width d.number.toNat := by simp [heq]
        exact absurd (Digits.isDigit_of_mem_padded hmem) (by decide)
      · exact hread
    · exact hread
  have hbound : d.number.toNat ≤ 255 := Nat.le_of_lt_succ d.number.toNat_lt
  simp [ofChars?, Digits.readUpTo?, hplus, Option.filter, hbound]

namespace ViewKind

/-- A route that begins as those of devices do is that of a device or of nothing. -/
theorem ofRoute?_device (text : String) :
    ofRoute? ("devices/" ++ text) = (DeviceRef.ofChars? text.toList).map .device := by
  have hother (name : String) (hname : name.toList.head? ≠ some 'd') :
      "devices/" ++ text ≠ name := by
    rintro rfl
    exact hname (by simp)
  have hprefix : deviceRoute.isPrefixOf ("devices/" ++ text).toList = true := by
    rw [String.toList_append]
    exact List.isPrefixOf_iff_prefix.mpr (List.prefix_append _ _)
  have hrest : ("devices/" ++ text).toList.drop deviceRoute.length = text.toList := by
    rw [String.toList_append]
    exact List.drop_left
  unfold ofRoute?
  split
  all_goals first
    | exact absurd ‹_› (hother _ (by decide))
    | rw [deviceOfRoute?, if_pos hprefix, hrest]

/-- The route of a view leads back to it. -/
theorem ofRoute?_route (kind : ViewKind) : ofRoute? kind.route = some kind := by
  cases kind with
  | device did =>
    have hread : DeviceRef.ofChars? did.text.toList = some did := by
      simpa [Digits.padded, DeviceRef.text, Digits.text] using did.ofChars?_padded (.inl rfl) 0
    rw [route, ofRoute?_device, hread, Option.map_some]
  | _ => rfl

/-- No two views have the same route. -/
theorem route_injective : Function.Injective route := by
  intro kind kind' h
  have hback := ofRoute?_route kind'
  rw [← h, ofRoute?_route] at hback
  exact Option.some.inj hback

end ViewKind

/-! ## Section 2 — paths -/

namespace Resource

/-- What the paths to views begin with. -/
def viewPrefix : List Char := "/views/".toList

theorem drop_viewPrefix (route : List Char) : (viewPrefix ++ route).drop 7 = route :=
  List.drop_left' rfl

theorem segments_viewPrefix (route : List Char) :
    segments (viewPrefix ++ route) = [] :: "views".toList :: segments route := by
  have hslash : viewPrefix ++ route = [] ++ '/' :: ("views".toList ++ '/' :: route) := rfl
  have hviews : ∀ c ∈ "views".toList, (c == '/') = false := by simp
  rw [hslash, segments, List.splitOn_eq_splitOnP,
    List.splitOnP_append_cons_of_forall_mem (by simp) '/' (by decide),
    List.splitOnP_append_cons_of_forall_mem hviews '/' (by decide)]
  rfl

/-- A path leads to a view exactly if it goes on after the collection of views. -/
theorem ofPath?_eq_view_iff {path route : List Char} :
    ofPath? path = some (.view route) ↔ route ≠ [] ∧ path = viewPrefix ++ route := by
  constructor
  · intro h
    unfold ofPath? at h
    split at h
    case h_4 heq =>
      obtain ⟨empty, others, hsegments, hempty, heq⟩ := List.map_eq_cons_iff.mp heq
      obtain ⟨views, rest, rfl, hviews, _⟩ := List.map_eq_cons_iff.mp heq
      obtain rfl : empty = [] := by simpa using congrArg String.toList hempty
      obtain rfl : views = "views".toList := by simpa using congrArg String.toList hviews
      have hpath : path = ['/'].intercalate ([] :: "views".toList :: rest) := by
        rw [← hsegments, segments, List.intercalate_splitOn]
      obtain ⟨hne, rfl⟩ : path.drop 7 ≠ [] ∧ path.drop 7 = route := by simpa using h
      refine ⟨hne, ?_⟩
      cases rest with
      | nil => exact absurd (by rw [hpath]; rfl) hne
      | cons segment rest =>
        have hcons : path = viewPrefix ++ ['/'].intercalate (segment :: rest) := hpath
        rw [hcons, drop_viewPrefix]
    all_goals
      first
      | cases h
      | (split at h <;> cases h)
  · rintro ⟨hne, rfl⟩
    obtain ⟨segment, others, hsegments⟩ :=
      List.exists_cons_of_ne_nil (List.splitOn_ne_nil '/' route)
    unfold ofPath?
    rw [segments_viewPrefix, segments, hsegments, drop_viewPrefix]
    simp [hne]

end Resource

/-! ## Section 3 — requests for views -/

/-- A request asks by a method for the view of a text. -/
structure Request.AsksFor (r : Request) (method text : String) : Prop where
  method_eq : r.method = method
  path_eq : ∃ route, r.path = Resource.viewPrefix ++ route ∧
    Percent.decodeText? route = some text

namespace Board

variable {b : Board} {r : Request} {method text : String} {kind : ViewKind}

/-- A request that is admitted asks by a method for the view of a kind, under one of
its names. -/
structure Wants (b : Board) (r : Request) (method : String) (kind : ViewKind) : Prop where
  admits : b.admits r = true
  named : ∃ text, r.AsksFor method text ∧ ViewKind.ofRoute? text = some kind

/-- A request for a view that is named shows the view or unmounts it, whatever the name. -/
theorem respond_of_wants (h : b.Wants r method kind) (hmethod : method ∈ ["GET", "DELETE"]) :
    b.respond r = if method = "DELETE" then b.dropView kind else b.showView kind := by
  obtain ⟨hadmits, text, ⟨rfl, route, hpath, hdecode⟩, hkind⟩ := h
  have hne : route ≠ [] := by
    rintro rfl
    cases hdecode
    cases hkind
  have hresource : Resource.ofPath? r.path = some (.view route) :=
    Resource.ofPath?_eq_view_iff.mpr ⟨hne, hpath⟩
  have htakes : (Resource.view route).methods.contains r.method = true := by
    simpa [Resource.methods] using hmethod
  simp only [respond, hadmits, hresource, htakes, serve, viewOf, hdecode, hkind, orAnswer,
    Bool.not_true, Bool.false_eq_true, if_false, if_true, ite_apply]

/-- A request for a view that is not named finds nothing and changes nothing. -/
theorem respond_of_asksFor_unknown (hadmits : b.admits r = true) (h : r.AsksFor method text)
    (hmethod : method ∈ ["GET", "DELETE"]) (hkind : ViewKind.ofRoute? text = none) :
    ∃ body, b.respond r = (.ok ⟨404, body⟩, b) := by
  obtain ⟨rfl, route, hpath, hdecode⟩ := h
  by_cases hne : route = []
  · subst hne
    have hresource : Resource.ofPath? r.path = none := by
      rw [hpath]
      decide
    exact ⟨.empty, by simp only [respond, hadmits, hresource]; rfl⟩
  · have hresource : Resource.ofPath? r.path = some (.view route) :=
      Resource.ofPath?_eq_view_iff.mpr ⟨hne, hpath⟩
    have htakes : (Resource.view route).methods.contains r.method = true := by
      simpa [Resource.methods] using hmethod
    refine ⟨.json (BoardError.unknownView text).toJson, ?_⟩
    simp only [respond, hadmits, hresource, htakes, serve, viewOf, hdecode, hkind, orAnswer]
    rfl

end Board

end HouseBoard
