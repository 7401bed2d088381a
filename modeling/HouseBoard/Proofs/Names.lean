/-
HouseBoard.Proofs.Names — which texts name views.

A view has one route, and may have other names: an alarm has two, and a device as many as there
are ways to write its number.  Section 1 says which texts are names of which view, and Section 2
that the route stands for all of them.
-/
import HouseBoard.Proofs.Route

namespace HouseBoard

/-! ## Section 1 — names -/

/-- A device is named by its number, which may carry one plus sign. -/
theorem DeviceRef.ofChars?_eq_some_iff {cs : List Char} {did : DeviceRef} :
    ofChars? cs = some did ↔ ∃ sign digits : String, (sign = "" ∨ sign = "+") ∧
      Digits.Numeral digits did.number.toNat ∧ cs = (sign ++ digits).toList := by
  rw [ofChars?, Digits.readUpTo?]
  constructor
  · intro h
    obtain ⟨n, hn, rfl⟩ := Option.map_eq_some_iff.mp h
    obtain ⟨hread, hbound⟩ := Option.filter_eq_some_iff.mp hn
    have hnumber : (UInt8.ofNat n).toNat = n :=
      UInt8.toNat_ofNat_of_lt' (Nat.lt_succ_of_le (of_decide_eq_true hbound))
    rw [hnumber]
    exact Digits.readPlus?_ten_eq_some_iff.mp hread
  · intro h
    have hbound : did.number.toNat ≤ 255 := Nat.le_of_lt_succ did.number.toNat_lt
    rw [Digits.readPlus?_ten_eq_some_iff.mpr h]
    simp [Option.filter, hbound]

namespace ViewKind

/-- The names of a view. -/
inductive Names : ViewKind → String → Prop
  | home : Names .home "home"
  | ble : Names .ble "ble"
  | garage : Names .garage "garage"
  | heaters : Names .heaters "heaters"
  | alarm : Names .alarm "alarm"
  | alarms : Names .alarm "alarms"
  | device {did : DeviceRef} {sign digits : String} (hsign : sign = "" ∨ sign = "+")
      (hdigits : Digits.Numeral digits did.number.toNat) :
      Names (.device did) ("devices/" ++ (sign ++ digits))

/-- A text leads to a view exactly if it is one of its names. -/
theorem ofRoute?_eq_some_iff {name : String} {kind : ViewKind} :
    ofRoute? name = some kind ↔ kind.Names name := by
  constructor
  · intro h
    unfold ofRoute? at h
    split at h
    case h_7 =>
      unfold deviceOfRoute? at h
      split at h
      · rename_i hprefix
        obtain ⟨rest, hrest⟩ := List.isPrefixOf_iff_prefix.mp hprefix
        rw [← hrest, List.drop_left] at h
        obtain ⟨did, hdid, rfl⟩ := Option.map_eq_some_iff.mp h
        obtain ⟨sign, digits, hsign, hdigits, rfl⟩ := DeviceRef.ofChars?_eq_some_iff.mp hdid
        have happend : ("devices/" ++ (sign ++ digits)).toList =
            deviceRoute ++ (sign ++ digits).toList :=
          String.toList_append
        obtain rfl : "devices/" ++ (sign ++ digits) = name := by
          rw [← String.toList_inj, happend, hrest]
        exact .device hsign hdigits
      · cases h
    all_goals
      cases h
      constructor
  · intro h
    cases h with
    | device hsign hdigits =>
      rw [ofRoute?_device, DeviceRef.ofChars?_eq_some_iff.mpr ⟨_, _, hsign, hdigits, rfl⟩,
        Option.map_some]
    | _ => rfl

/-! ## Section 2 — routes -/

/-- The route of the view that a text names. -/
def canonical? (name : String) : Option String := (ofRoute? name).map route

/-- Some view is named exactly by six words and by the numbers up to 255 after what the routes
of devices begin with. -/
theorem exists_names_iff {name : String} :
    (∃ kind : ViewKind, kind.Names name) ↔
      name ∈ ["home", "ble", "garage", "heaters", "alarm", "alarms"] ∨
        ∃ sign digits n, (sign = "" ∨ sign = "+") ∧ Digits.Numeral digits n ∧ n ≤ 255 ∧
          name = "devices/" ++ (sign ++ digits) := by
  constructor
  · rintro ⟨kind, h⟩
    cases h with
    | @device did sign digits hsign hdigits =>
      exact .inr ⟨sign, digits, _, hsign, hdigits, Nat.le_of_lt_succ did.number.toNat_lt, rfl⟩
    | _ => exact .inl (by decide)
  · rintro (hword | ⟨sign, digits, n, hsign, hdigits, hbound, rfl⟩)
    · simp only [List.mem_cons, List.not_mem_nil, or_false] at hword
      rcases hword with rfl | rfl | rfl | rfl | rfl | rfl
      · exact ⟨_, .home⟩
      · exact ⟨_, .ble⟩
      · exact ⟨_, .garage⟩
      · exact ⟨_, .heaters⟩
      · exact ⟨_, .alarm⟩
      · exact ⟨_, .alarms⟩
    · have hnumber : (UInt8.ofNat n).toNat = n :=
        UInt8.toNat_ofNat_of_lt' (Nat.lt_succ_of_le hbound)
      exact ⟨.device ⟨UInt8.ofNat n⟩, .device hsign (by rwa [hnumber])⟩

/-- A text leads to a view exactly if it is one of six words or the number of a device after its
prefix, and to that one of whose names it is.  The route of a view is the canonical one of its
names: it leads back to the view, and two texts lead to the same view exactly if the view of
each has the same route. -/
theorem ofRoute?_canonical :
    (∀ name, (∃ kind, ofRoute? name = some kind) ↔
      name ∈ ["home", "ble", "garage", "heaters", "alarm", "alarms"] ∨
        ∃ sign digits n, (sign = "" ∨ sign = "+") ∧ Digits.Numeral digits n ∧ n ≤ 255 ∧
          name = "devices/" ++ (sign ++ digits)) ∧
      (∀ name kind, ofRoute? name = some kind ↔ kind.Names name) ∧
      (∀ kind, ofRoute? kind.route = some kind ∧ canonical? kind.route = some kind.route) ∧
      ∀ name name', (∃ kind, ofRoute? name = some kind ∧ ofRoute? name' = some kind) ↔
        ∃ route, canonical? name = some route ∧ canonical? name' = some route := by
  refine ⟨fun name => ?_, fun name kind => ofRoute?_eq_some_iff, fun kind => ?_,
    fun name name' => ?_⟩
  · simp only [ofRoute?_eq_some_iff, exists_names_iff]
  · rw [canonical?, ofRoute?_route, Option.map_some]
    exact ⟨rfl, rfl⟩
  · constructor
    · rintro ⟨kind, h, h'⟩
      exact ⟨kind.route, by rw [canonical?, h, Option.map_some],
        by rw [canonical?, h', Option.map_some]⟩
    · rintro ⟨route, h, h'⟩
      obtain ⟨kind, hkind, rfl⟩ := Option.map_eq_some_iff.mp h
      obtain ⟨kind', hkind', hroute⟩ := Option.map_eq_some_iff.mp h'
      exact ⟨kind, hkind, by rw [hkind', route_injective hroute]⟩

example : canonical? "devices/+007" = some "devices/7" := by decide +kernel

end ViewKind

end HouseBoard
