/-
HouseBoard.Proofs.Overlay — settings that are given lie over those that stand.

Section 1 reads values as they are usually written.  Section 2 lists the knobs of all sections,
and Section 3 what has to hold of settings, in the order in which it is checked.  Section 4 puts
them together: the settings of a text are those that it gives over those that stand, if they
pass all checks, and no file is passed over but one that cannot be looked at.
-/
import Mathlib.Tactic.FinCases
import HouseBoard.Launch.Plan
import HouseBoard.Proofs.Digits
import HouseBoard.Proofs.Sections

namespace HouseBoard

/-! ## Section 1 — values -/

namespace Yaml

/-- A plain scalar. -/
def Node.plain (text : String) : Node := .scalar text .plain none

/-- What is read from values as they are usually written. -/
structure ReadsValues (d : Document) : Prop where
  text : ∀ t style tag, Reader.text d (.scalar t style tag) = some t
  quoted : ∀ t, Reader.optionalText d (.scalar t .quoted none) = some (some t)
  absent : Reader.optionalText d (.plain "null") = some none
  yes : Reader.flag d (.plain "true") = some true
  no : Reader.flag d (.plain "false") = some false
  number : ∀ bound n,
    Reader.upTo bound d (.plain (Digits.text n)) = if n ≤ bound then some n else none
  numbers : ∀ bound ns, (∀ n ∈ ns, n ≤ bound) →
    Reader.listOf (.upTo bound) d (.sequence (ns.map fun n => .plain (Digits.text n))) = some ns

/-- Numbers without leading zeros are read. -/
theorem naturalOf?_decimal (n : Nat) : naturalOf? (Digits.decimal n) = some n := by
  have hread := Digits.read?_decimal n
  rcases Nat.eq_zero_or_pos n with rfl | hpos
  · rfl
  · have hzero := Digits.head?_decimal_ne hpos
    have hdigit : ∀ c ∈ Digits.decimal n, c.isDigit = true :=
      fun _ => Digits.isDigit_of_mem_decimal
    generalize Digits.decimal n = cs at hread hzero hdigit
    cases cs with
    | nil => cases hread
    | cons c cs =>
      have hplus : c ≠ '+' := by
        rintro rfl
        exact absurd (hdigit '+' List.mem_cons_self) (by decide)
      have hne : c ≠ '0' := fun heq => hzero (by rw [heq, List.head?_cons])
      have hunsigned : naturalOf? (c :: cs) = Digits.read? 10 (c :: cs) := by
        unfold naturalOf?
        dsimp only
        split
        case h_6 =>
          split
          · rename_i heq
            exact absurd (List.cons.inj heq).1 hplus
          · rfl
        all_goals
          rename_i heq
          split at heq
          · rename_i hsigned
            exact absurd (List.cons.inj hsigned).1 hplus
          · exact absurd (List.cons.inj heq).1 hne
      rw [hunsigned, hread]

theorem upTo_plain (d : Document) (bound n : Nat) :
    Reader.upTo bound d (.plain (Digits.text n)) = if n ≤ bound then some n else none := by
  have hbare : (d.resolve (.plain (Digits.text n))).bare? "int" = some (Digits.text n) := rfl
  have htext : (Digits.text n).toList = Digits.decimal n := String.toList_ofList
  unfold Reader.upTo
  rw [hbare, Option.bind_eq_bind, Option.bind_some, htext, naturalOf?_decimal,
    Option.filter_some]
  simp only [decide_eq_true_eq]

theorem listOf_plain (d : Document) {bound : Nat} {ns : List Nat} (h : ∀ n ∈ ns, n ≤ bound) :
    Reader.listOf (.upTo bound) d (.sequence (ns.map fun n => .plain (Digits.text n))) =
      some ns := by
  change (ns.map fun n => Node.plain (Digits.text n)).mapM (Reader.upTo bound d) = some ns
  induction ns with
  | nil => rfl
  | cons n ns ih =>
    obtain ⟨hn, hns⟩ := List.forall_mem_cons.mp h
    rw [List.map_cons, List.mapM_cons, upTo_plain, if_pos hn, Option.bind_eq_bind,
      Option.bind_some, ih hns]
    rfl

theorem readsValues (d : Document) : ReadsValues d where
  text _ _ _ := rfl
  quoted _ := rfl
  absent := rfl
  yes := rfl
  no := rfl
  number := upTo_plain d
  numbers _ _ := listOf_plain d

/-- Two knobs that make up a value. -/
theorem lawful_pair {σ : Type} {k l : Knob σ} (hname : k.name ≠ l.name)
    (hk : ∀ a s, k.get (k.put a s) = a) (hl : ∀ a s, l.get (l.put a s) = a)
    (hkl : ∀ a s, l.get (k.put a s) = l.get s) (hlk : ∀ a s, k.get (l.put a s) = k.get s)
    (hext : ∀ s s', k.get s = k.get s' → l.get s = l.get s' → s = s') :
    Lawful [k, l] where
  names :=
    List.nodup_cons.mpr ⟨fun h => hname (List.mem_singleton.mp h), List.nodup_singleton _⟩
  get_put := List.forall_mem_cons.mpr ⟨hk, List.forall_mem_singleton.mpr hl⟩
  get_put_other := by
    rw [List.forall_mem_cons, List.forall_mem_singleton, List.forall_mem_cons,
      List.forall_mem_singleton, List.forall_mem_cons, List.forall_mem_singleton]
    exact ⟨⟨fun h => absurd rfl h, fun _ => hkl⟩, fun _ => hlk, fun h => absurd rfl h⟩
  ext s s' h := hext s s' (h k List.mem_cons_self)
    (h l (List.mem_cons_of_mem _ List.mem_cons_self))

end Yaml

/-! ## Section 2 — knobs -/

open Yaml

/-- The knobs of the gateway. -/
def GatewaySettings.knobs : List (Knob GatewaySettings) :=
  [⟨String, "base_url", .text, (·.baseUrl), fun baseUrl s => { s with baseUrl }⟩,
    ⟨Nat, "timeout_ms", .upTo maxSeconds, (·.timeoutMs),
      fun timeoutMs s => { s with timeoutMs }⟩]

/-- The knobs of the thresholds. -/
def LivenessPolicy.knobs : List (Knob LivenessPolicy) :=
  [⟨Nat, "caniot_online_threshold_secs", .upTo maxSeconds, (·.caniotThreshold),
      fun caniotThreshold s => { s with caniotThreshold }⟩,
    ⟨Nat, "ble_online_threshold_secs", .upTo maxSeconds, (·.bleThreshold),
      fun bleThreshold s => { s with bleThreshold }⟩]

/-- The knobs of the polling. -/
def PollingSettings.knobs : List (Knob PollingSettings) :=
  [⟨Nat, "tick_interval_ms", .upTo maxSeconds, (·.tickMs), fun tickMs s => { s with tickMs }⟩,
    ⟨Nat, "poll_interval_ms", .upTo maxSeconds, (·.pollMs), fun pollMs s => { s with pollMs }⟩]

/-- The knobs of the display. -/
def DisplaySettings.knobs : List (Knob DisplaySettings) :=
  [⟨Bool, "debug_mode", .flag, (·.debugMode), fun debugMode s => { s with debugMode }⟩,
    ⟨List Nat, "summer_months", .listOf (.upTo 255), (·.summerMonths),
      fun summerMonths s => { s with summerMonths }⟩]

/-- The knobs of the notifications. -/
def NotificationSettings.knobs : List (Knob NotificationSettings) :=
  [⟨Nat, "capacity", .upTo maxSeconds, (·.capacity), fun capacity s => { s with capacity }⟩,
    ⟨Nat, "duration_secs", .upTo maxSeconds, (·.durationSecs),
      fun durationSecs s => { s with durationSecs }⟩]

/-- The knobs of the server. -/
def ServerSettings.knobs : List (Knob ServerSettings) :=
  [⟨String, "listen", .text, (·.listen), fun listen s => { s with listen }⟩,
    ⟨Option String, "api_key", .optionalText, (·.apiKey), fun apiKey s => { s with apiKey }⟩]

namespace Settings

/-- All sections. -/
def sections : List (Yaml.Section Settings) :=
  [{  Value := GatewaySettings, name := "backend", knobs := GatewaySettings.knobs
      standing := {}
      get := (·.gateway), put := fun gateway s => { s with gateway }
      lawful := lawful_pair (by decide) (fun _ _ => rfl) (fun _ _ => rfl) (fun _ _ => rfl)
        (fun _ _ => rfl) fun ⟨_, _⟩ ⟨_, _⟩ h h' => congrArg₂ GatewaySettings.mk h h' },
    { Value := LivenessPolicy, name := "liveness", knobs := LivenessPolicy.knobs
      standing := LivenessPolicy.default
      get := (·.liveness), put := fun liveness s => { s with liveness }
      lawful := lawful_pair (by decide) (fun _ _ => rfl) (fun _ _ => rfl) (fun _ _ => rfl)
        (fun _ _ => rfl) fun ⟨_, _⟩ ⟨_, _⟩ h h' => congrArg₂ LivenessPolicy.mk h h' },
    { Value := PollingSettings, name := "polling", knobs := PollingSettings.knobs
      standing := {}
      get := (·.polling), put := fun polling s => { s with polling }
      lawful := lawful_pair (by decide) (fun _ _ => rfl) (fun _ _ => rfl) (fun _ _ => rfl)
        (fun _ _ => rfl) fun ⟨_, _⟩ ⟨_, _⟩ h h' => congrArg₂ PollingSettings.mk h h' },
    { Value := DisplaySettings, name := "ui", knobs := DisplaySettings.knobs
      standing := {}
      get := (·.display), put := fun display s => { s with display }
      lawful := lawful_pair (by decide) (fun _ _ => rfl) (fun _ _ => rfl) (fun _ _ => rfl)
        (fun _ _ => rfl) fun ⟨_, _⟩ ⟨_, _⟩ h h' => congrArg₂ DisplaySettings.mk h h' },
    { Value := NotificationSettings, name := "notifications"
      knobs := NotificationSettings.knobs
      standing := {}
      get := (·.notifications), put := fun notifications s => { s with notifications }
      lawful := lawful_pair (by decide) (fun _ _ => rfl) (fun _ _ => rfl) (fun _ _ => rfl)
        (fun _ _ => rfl) fun ⟨_, _⟩ ⟨_, _⟩ h h' => congrArg₂ NotificationSettings.mk h h' },
    { Value := ServerSettings, name := "http", knobs := ServerSettings.knobs
      standing := {}
      get := (·.server), put := fun server s => { s with server }
      lawful := lawful_pair (by decide) (fun _ _ => rfl) (fun _ _ => rfl) (fun _ _ => rfl)
        (fun _ _ => rfl) fun ⟨_, _⟩ ⟨_, _⟩ h h' => congrArg₂ ServerSettings.mk h h' }]

theorem lawful_sections : Lawful (sections.map Section.knob) where
  names := by decide
  get_put k hk := by
    obtain ⟨g, hg, rfl⟩ := List.mem_map.mp hk
    fin_cases hg
    all_goals exact fun _ _ => rfl
  get_put_other k hk l hl := by
    obtain ⟨g, hg, rfl⟩ := List.mem_map.mp hk
    obtain ⟨g', hg', rfl⟩ := List.mem_map.mp hl
    fin_cases hg <;> fin_cases hg'
    all_goals
      intro hname a s
      first
        | rfl
        | exact absurd rfl hname
  ext s s' h := by
    have hall : ∀ g ∈ sections, g.get s = g.get s' :=
      fun g hg => h g.knob (List.mem_map_of_mem hg)
    simp only [sections, List.forall_mem_cons] at hall
    obtain ⟨hgateway, hliveness, hpolling, hdisplay, hnotifications, hserver, -⟩ := hall
    obtain ⟨gateway, liveness, polling, display, notifications, server⟩ := s
    cases hgateway
    cases hliveness
    cases hpolling
    cases hdisplay
    cases hnotifications
    cases hserver
    rfl

/-- The standing settings have the sections that stand. -/
theorem get_standing {g : Yaml.Section Settings} (hg : g ∈ sections) :
    g.get {} = g.standing := by
  fin_cases hg
  all_goals rfl

/-- Settings are what entries give, and what stands where they give nothing. -/
structure Overlays (d : Document) (entries : List (Node × Node)) (s : Settings) : Prop where
  /-- Sections are given once at most, and are sections; all names are text. -/
  sectioned : Sectioned sections d entries
  /-- A knob that is not given stands, and one that is given once is where it was put. -/
  each : ∀ g ∈ sections, ∀ k ∈ g.knobs,
    (g.inner k).Overlaid d {} s (namedIn d g.name k.name entries)

theorem reader_eq_some_iff {d : Document} {n : Node} {s : Settings} :
    Settings.reader d n = some s ↔
      ∃ entries, d.entries? n = some entries ∧ Overlays d entries s := by
  have hreader : Settings.reader = .ofEntries ((sections.map Section.knob).map Knob.entry) {} :=
    rfl
  rw [hreader, sections_eq_some_iff lawful_sections (fun _ => get_standing)]
  exact exists_congr fun entries => and_congr_right fun _ =>
    ⟨fun h => ⟨h.1, h.2⟩, fun h => ⟨h.1, h.2⟩⟩

/-! ## Section 3 — checks -/

/-- Something that has to hold of settings, and the setting that is blamed otherwise. -/
structure Check where
  field : String
  holds : Settings → Prop

/-- The checks in their order. -/
def checks : List Check :=
  [⟨"liveness.caniot_online_threshold_secs", fun s => 1 ≤ s.liveness.caniotThreshold⟩,
    ⟨"liveness.ble_online_threshold_secs", fun s => 1 ≤ s.liveness.bleThreshold⟩,
    ⟨"polling", fun s => 1 ≤ s.polling.tickMs ∧ 1 ≤ s.polling.pollMs⟩,
    ⟨"ui.summer_months", fun s => ∀ m ∈ s.display.summerMonths, 1 ≤ m ∧ m ≤ 12⟩,
    ⟨"notifications.capacity", fun s => 1 ≤ s.notifications.capacity⟩]

/-- Settings pass all checks. -/
def Sound (s : Settings) : Prop := ∀ c ∈ checks, c.holds s

/-- The first check that settings fail blames a setting. -/
def FirstFailing (s : Settings) (field : String) : Prop :=
  ∃ before c after, checks = before ++ c :: after ∧
    (∀ b ∈ before, b.holds s) ∧ ¬ c.holds s ∧ c.field = field

end Settings

/-- The setting that a fault is about. -/
def SettingsFault.field : SettingsFault → String
  | .threshold .caniot => "liveness.caniot_online_threshold_secs"
  | .threshold .ble => "liveness.ble_online_threshold_secs"
  | .intervals => "polling"
  | .month _ => "ui.summer_months"
  | .capacity => "notifications.capacity"

/-- The words for a fault name the setting. -/
theorem SettingsFault.exists_text_eq (f : SettingsFault) :
    ∃ reason, f.text = "invalid value for " ++ f.field ++ ": " ++ reason := by
  cases f with
  | threshold cls => cases cls <;> exact ⟨_, rfl⟩
  | _ => exact ⟨_, rfl⟩

namespace Settings

theorem month_eq_false_iff {m : Nat} :
    ¬ (decide (m < 1) || decide (12 < m)) = true ↔ 1 ≤ m ∧ m ≤ 12 := by
  rw [Bool.or_eq_true, decide_eq_true_iff, decide_eq_true_iff]
  omega

theorem FirstFailing.not_sound {s : Settings} {field : String} (h : s.FirstFailing field) :
    ¬ s.Sound := by
  obtain ⟨before, c, after, hchecks, -, hfails, -⟩ := h
  intro hsound
  refine hfails (hsound c ?_)
  rw [hchecks]
  exact List.mem_append_right _ List.mem_cons_self

/-- A fault is about what the first failing check blames, and without one all checks pass. -/
theorem fault?_spec (s : Settings) : match s.fault? with
    | none => s.Sound
    | some f => s.FirstFailing f.field := by
  unfold fault?
  by_cases hcaniot : s.liveness.caniotThreshold = 0
  · rw [if_pos hcaniot]
    exact ⟨[], _, _, rfl, List.forall_mem_nil _, Nat.not_le_of_lt (by omega), rfl⟩
  rw [if_neg hcaniot]
  have hfirst : 1 ≤ s.liveness.caniotThreshold := Nat.pos_of_ne_zero hcaniot
  by_cases hble : s.liveness.bleThreshold = 0
  · rw [if_pos hble]
    exact ⟨[_], _, _, rfl, by simpa using hfirst, Nat.not_le_of_lt (by omega), rfl⟩
  rw [if_neg hble]
  have hsecond : 1 ≤ s.liveness.bleThreshold := Nat.pos_of_ne_zero hble
  by_cases hpolling : s.polling.tickMs = 0 ∨ s.polling.pollMs = 0
  · rw [if_pos hpolling]
    exact ⟨[_, _], _, _, rfl, by simpa using ⟨hfirst, hsecond⟩,
      by rintro ⟨htick, hpoll⟩; omega, rfl⟩
  rw [if_neg hpolling]
  have hthird : 1 ≤ s.polling.tickMs ∧ 1 ≤ s.polling.pollMs := by omega
  cases hmonth : s.display.summerMonths.find? fun m => m < 1 || 12 < m with
  | some m =>
    have hbad := List.find?_some hmonth
    refine ⟨[_, _, _], _, _, rfl, by simpa using ⟨hfirst, hsecond, hthird⟩,
      fun hmonths => ?_, rfl⟩
    exact month_eq_false_iff.mpr (hmonths m (List.mem_of_find?_eq_some hmonth)) hbad
  | none =>
    have hfourth : ∀ m ∈ s.display.summerMonths, 1 ≤ m ∧ m ≤ 12 :=
      fun m hm => month_eq_false_iff.mp (List.find?_eq_none.mp hmonth m hm)
    dsimp only
    by_cases hcapacity : s.notifications.capacity = 0
    · rw [if_pos hcapacity]
      exact ⟨[_, _, _, _], _, _, rfl, by simpa using ⟨hfirst, hsecond, hthird, hfourth⟩,
        Nat.not_le_of_lt (by omega), rfl⟩
    · rw [if_neg hcapacity]
      have hfifth : 1 ≤ s.notifications.capacity := Nat.pos_of_ne_zero hcapacity
      change s.Sound
      simpa [Sound, checks] using ⟨hfirst, hsecond, hthird, hfourth, hfifth⟩

/-! ## Section 4 — texts and files -/

/-- A text gives settings. -/
inductive Gives (text : String) : Settings → Prop
  /-- A text of white space gives what stands. -/
  | blank (hblank : Space.isBlank text = true) : Gives text {}
  /-- So does one that holds no document, such as a comment. -/
  | empty {d : Document} (hwritten : Space.isBlank text = false)
      (hread : Document.read? text = some d) (hroot : d.root = none) : Gives text {}
  /-- A mapping gives its entries over what stands. -/
  | sections {d : Document} {root : Node} {entries : List (Node × Node)} {s : Settings}
      (hwritten : Space.isBlank text = false) (hread : Document.read? text = some d)
      (hroot : d.root = some root) (hentries : d.entries? root = some entries)
      (hoverlays : Overlays d entries s) : Gives text s

/-- The settings that a text gives, before they are checked. -/
def given? (text : String) : Option Settings :=
  if Space.isBlank text then some {} else Settings.reader.readText? {} text

theorem given?_eq_some_iff {text : String} {s : Settings} :
    given? text = some s ↔ Gives text s := by
  unfold given? Reader.readText?
  constructor
  · intro h
    split at h
    · rename_i hblank
      cases h
      exact .blank hblank
    · rename_i hwritten
      obtain ⟨d, hread, h⟩ := Option.bind_eq_some_iff.mp h
      split at h
      · rename_i hroot
        cases h
        exact .empty (Bool.eq_false_iff.mpr hwritten) hread hroot
      · rename_i root hroot
        obtain ⟨entries, hentries, hoverlays⟩ := reader_eq_some_iff.mp h
        exact .sections (Bool.eq_false_iff.mpr hwritten) hread hroot hentries hoverlays
  · intro h
    cases h with
    | blank hblank => rw [if_pos hblank]
    | empty hwritten hread hroot =>
      rw [if_neg (Bool.eq_false_iff.mp hwritten), hread, Option.bind_eq_bind,
        Option.bind_some, hroot]
      rfl
    | sections hwritten hread hroot hentries hoverlays =>
      rw [if_neg (Bool.eq_false_iff.mp hwritten), hread, Option.bind_eq_bind,
        Option.bind_some, hroot]
      exact reader_eq_some_iff.mpr ⟨_, hentries, hoverlays⟩

/-- The settings that a text gives are checked, and what stands passes. -/
theorem ofText_eq (text : String) :
    ofText text = match given? text with
      | none => .error .malformed
      | some s => match s.fault? with
        | some fault => .error (.invalid fault)
        | none => .ok s := by
  unfold ofText given?
  split
  · rfl
  · rfl

/-- What a text that gives settings amounts to. -/
theorem ofText_of_gives {text : String} {s : Settings} (h : Gives text s) :
    ofText text = match s.fault? with
      | some fault => .error (.invalid fault)
      | none => .ok s := by
  rw [ofText_eq, given?_eq_some_iff.mpr h]

theorem ofText_of_not_gives {text : String} (h : ∀ s, ¬ Gives text s) :
    ofText text = .error .malformed := by
  have hnone : given? text = none :=
    Option.eq_none_iff_forall_ne_some.mpr fun s hs => h s (given?_eq_some_iff.mp hs)
  rw [ofText_eq, hnone]

theorem ofText_eq_ok_iff {text : String} {s : Settings} :
    ofText text = .ok s ↔ Gives text s ∧ s.Sound := by
  constructor
  · intro h
    have hgives : Gives text s := by
      rw [ofText_eq] at h
      split at h
      · cases h
      · rename_i s' hgiven
        split at h
        · cases h
        · cases h
          exact given?_eq_some_iff.mp hgiven
    have hspec := s.fault?_spec
    rw [ofText_of_gives hgives] at h
    split at h
    · cases h
    · rename_i hnone
      rw [hnone] at hspec
      exact ⟨hgives, hspec⟩
  · rintro ⟨hgives, hsound⟩
    have hspec := s.fault?_spec
    rw [ofText_of_gives hgives]
    split
    · rename_i f hf
      rw [hf] at hspec
      exact absurd hsound hspec.not_sound
    · rfl

theorem exists_fault_of_not_sound {s : Settings} (h : ¬ s.Sound) :
    ∃ f, s.fault? = some f ∧ s.FirstFailing f.field := by
  have hspec := s.fault?_spec
  cases hfault : s.fault? with
  | none =>
    rw [hfault] at hspec
    exact absurd hspec h
  | some f =>
    rw [hfault] at hspec
    exact ⟨f, rfl, hspec⟩

/-- A file that can be looked at gives settings only by its text, and any other
leaves what stands. -/
theorem ofFile_eq_ok_iff {path : String} {file : SettingsFile} {s : Settings} :
    ofFile path file = .ok s ↔
      ((file = .absent ∨ file = .hidden) ∧ s = {}) ∨
        ∃ content text, file = .bytes content ∧ String.fromUTF8? content = some text ∧
          ofText text = .ok s := by
  cases file with
  | absent => simp [ofFile, eq_comm]
  | hidden => simp [ofFile, eq_comm]
  | closed reason => simp [ofFile]
  | bytes content =>
    unfold ofFile
    cases htext : String.fromUTF8? content with
    | none => simp [htext]
    | some text => simp [htext]

/-- The settings of a text are those that it gives over those that stand, each knob by itself,
in whatever order and beside whatever else; they are refused, and the first failing check is
named, if they do not pass all checks.  A file gives settings only by its text, unless it is
missing or cannot be looked at: then what stands is left. -/
theorem overlay (text path : String) (file : SettingsFile) (s : Settings) :
    (ofText text = .ok s ↔ Gives text s ∧ s.Sound) ∧
      (Gives text s → ¬ s.Sound → ∃ f reason, ofText text = .error (.invalid f) ∧
        s.FirstFailing f.field ∧ f.text = "invalid value for " ++ f.field ++ ": " ++ reason) ∧
      (ofText text = .error .malformed ↔ ∀ s, ¬ Gives text s) ∧
      (ofFile path file = .ok s ↔
        ((file = .absent ∨ file = .hidden) ∧ s = {}) ∨
          ∃ content text, file = .bytes content ∧ String.fromUTF8? content = some text ∧
            Gives text s ∧ s.Sound) ∧
      Unordered Settings.reader (sections.map Section.name) ∧
      (∀ g ∈ sections, Unordered g.knob.reader (g.knobs.map Knob.name)) ∧
      ∀ d, ReadsValues d := by
  refine ⟨ofText_eq_ok_iff, fun hgives hsound => ?_,
    ⟨fun h s hgives => ?_, fun h => ?_⟩, ?_, ?_,
    fun g _ => unordered_ofEntries g.lawful _, readsValues⟩
  · obtain ⟨f, hfault, hfailing⟩ := exists_fault_of_not_sound hsound
    obtain ⟨reason, htext⟩ := f.exists_text_eq
    exact ⟨f, reason, by rw [ofText_of_gives hgives, hfault], hfailing, htext⟩
  · rw [ofText_of_gives hgives] at h
    split at h
    · cases h
    · cases h
  · exact ofText_of_not_gives h
  · simp only [ofFile_eq_ok_iff, ofText_eq_ok_iff]
  · exact unordered_ofEntries lawful_sections _

/-- What is not given stands, but not beside a setting that makes no sense, and not when there
is a file that cannot be read. -/
theorem overlay_partial :
    let text := "liveness:\n  ble_online_threshold_secs: 600\nui:\n  debug_mode: true\n"
    let s : Settings := { liveness := ⟨60, 600⟩, display := { debugMode := true } }
    let senseless := "polling:\n  tick_interval_ms: 0\n"
    let still : Settings := { polling := { tickMs := 0 } }
    (ofText text = .ok s ∧ Gives text s ∧ s.Sound) ∧
      (Gives senseless still ∧ ¬ still.Sound ∧ ∃ f, ofText senseless = .error (.invalid f) ∧
        still.FirstFailing f.field) ∧
      SettingsFile.directory ≠ .absent ∧ ∀ s, ofFile "dashboard.yaml" .directory ≠ .ok s := by
  intro text s senseless still
  have h : ofText text = .ok s := by decide +kernel
  have hgives : Gives senseless still := given?_eq_some_iff.mp (by decide +kernel)
  have hunsound : ¬ still.Sound := by
    intro hsound
    have htick : 1 ≤ still.polling.tickMs := (hsound checks[2] (by simp [checks])).1
    exact absurd htick (by decide)
  obtain ⟨f, _, hfault, hfailing, -⟩ := (overlay senseless "" .absent still).2.1 hgives hunsound
  have hthere : SettingsFile.directory ≠ .absent := fun h => nomatch h
  refine ⟨⟨h, (overlay text "" .absent s).1.mp h⟩,
    ⟨hgives, hunsound, f, hfault, hfailing⟩, hthere, fun s hs => ?_⟩
  rcases (overlay "" "dashboard.yaml" _ s).2.2.2.1.mp hs with
    ⟨hmissing | hhidden, -⟩ | ⟨content, text, hfile, -⟩
  · cases hmissing
  · cases hhidden
  · cases hfile

/-- A file that is named and there, but in a directory that may not be searched, is passed over
without an error. -/
theorem hidden_passed_over :
    let path := "locked/dashboard.yaml"
    let found : Surroundings := {
      given := [(Surroundings.pathVariable, path)]
      variableFile := none
      file := fun p => if p = path then .hidden else .absent
      isFree := fun _ => true }
    found.settingsPath = path ∧ found.file path ≠ .absent ∧
      ofFile found.settingsPath (found.file found.settingsPath) = .ok {} ∧
      found.plan.toOption.map Prod.fst = some {} := by
  intro path found
  have hpath : found.settingsPath = path := by decide +kernel
  have hfile : found.file path = .hidden := by simp only [found, ↓reduceIte]
  have hstands : ofFile path .hidden = .ok {} := rfl
  refine ⟨hpath, fun h => ?_, ?_, ?_⟩
  · rw [hfile] at h
    cases h
  · rw [hpath, hfile]
    exact hstands
  · unfold Surroundings.plan
    rw [hpath, hfile, hstands]
    decide +kernel

end Settings

end HouseBoard
