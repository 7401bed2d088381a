/-
HouseBoard.Proofs.Alive — what keeps a view alive.

The task of a view ends when the view was given up, and for no other reason but one: a failure
is reported, and the message about it would expire outside the calendar.  Then the task falls,
and nothing tidies up after it.  Section 2 says so exactly, and the same of commands; since
these take time, Section 1 tells first what endures while tasks run.  Sections 3 and 4 tell what
holds while no task falls: a view that nobody gave up has its task, and the views that are
counted are those that were mounted and have not left.  Section 5 tells what is left of a view
whose task fell: its slot, for good.
-/
import HouseBoard.Board.Answer
import HouseBoard.Proofs.Departure
import HouseBoard.Proofs.Sound

namespace HouseBoard

/-! ## Section 1 — what endures -/

/-- What holds of boards endures if no move of a task, no end of a task and no passing of time
puts an end to it. -/
structure Board.Endures (P : Board → Prop) : Prop where
  move : ∀ b id m, P b → P (b.move id m)
  finish : ∀ b id, P b → P (b.finish id)
  pass : ∀ b n, P b → P { b with now := n }

namespace Board.Endures

variable {P : Board → Prop} {b : Board}

theorem startPolls (h : Endures P) (id : ViewId) (rounds : Nat) (hb : P b) :
    P (Board.startPolls id rounds b) := by
  induction rounds generalizing b with
  | zero => exact hb
  | succ rounds ih =>
    unfold Board.startPolls
    split
    · exact ih (h.move _ id .answers (h.move b id .poll hb))
    · exact hb

theorem wake (h : Endures P) (id : ViewId) (hb : P b) : P (b.wake id) := by
  unfold Board.wake
  split
  · exact hb
  · split
    · exact h.finish b id hb
    · have hpolled := h.startPolls id (tolerance + 2) (h.move b id .answers hb)
      exact h.move _ id .rest (h.move _ id .tick hpolled)

theorem settle (h : Endures P) (hb : P b) : P b.settle := by
  unfold Board.settle
  generalize b.ready = ids
  induction ids generalizing b with
  | nil => exact hb
  | cons id ids ih => exact ih (h.wake id hb)

theorem runUntil (h : Endures P) (target fuel : Nat) (hb : P b) :
    P (Board.runUntil target fuel b) := by
  induction fuel generalizing b with
  | zero => exact hb
  | succ fuel ih =>
    unfold Board.runUntil
    split
    · split
      · exact ih (h.settle (h.pass b _ hb))
      · exact hb
    · exact hb

theorem reach (h : Endures P) (target : Nat) (hb : P b) : P (b.reach target) :=
  h.pass _ target (h.runUntil target _ hb)

theorem advance (h : Endures P) (ms : Nat) (hb : P b) : P (b.advance ms) :=
  h.settle (h.reach _ hb)

theorem await (h : Endures P) (condition : Board → Bool) (looks : Nat) (hb : P b) :
    P (b.await condition looks).2 := by
  induction looks generalizing b with
  | zero => exact hb
  | succ looks ih =>
    unfold Board.await
    split
    · exact hb
    · exact ih (h.advance 10 hb)

end Board.Endures

/-! ## Section 2 — failures that cannot be reported -/

namespace Board

variable {b : Board} {id : ViewId} {t : ViewTask} {m : Move}

/-- A task falls exactly if it reports a failure whose message does not expire
within the calendar. -/
theorem performs_eq_false_iff : b.performs t m = false ↔
    ¬ b.notifier.Lasts b.wall ∧ ∃ c e, .fail c e ∈ (b.turn t m).2.effects ∧ e.code ≠ .unknown :=
  performAll_fst_eq_false_iff

/-- When a message that is made now expires. -/
def expiry (b : Board) : Except Overflow Int := Timestamp.after b.wall b.notifier.lifetime

theorem lasts_iff : b.notifier.Lasts b.wall ↔ ∃ instant, b.expiry = .ok instant := Iff.rfl

theorem expiry_move (b : Board) (id : ViewId) (m : Move) : (b.move id m).expiry = b.expiry := by
  have hrecorded (b : Board) (es : List Effect) : (b.recorded id es).expiry = b.expiry :=
    congrArg (Timestamp.after b.wall) (Books.foldl_post_lifetime b.wall es b.books)
  cases ht : b.task? id with
  | none => simp only [move, ht]
  | some t =>
    cases hperforms : b.performs t m with
    | true =>
      rw [move_of_performs ht hperforms]
      exact hrecorded (b.stamped _) _
    | false =>
      obtain ⟨es, _, hes⟩ := move_of_not_performs ht hperforms
      rw [hes]
      exact hrecorded (b.stamped _) es

/-- It endures when messages expire. -/
theorem endures_expiry (expiry : Except Overflow Int) : Endures fun b => b.expiry = expiry where
  move b id m hb := (b.expiry_move id m).trans hb
  finish _ _ hb := hb
  pass _ _ hb := hb

/-- While a command is awaited it stays as it is when messages expire. -/
theorem expiry_sendCommand (b : Board) (did : DeviceRef) (command : Command) :
    (b.sendCommand did command).2.expiry = b.expiry := by
  simp only [sendCommand]
  split
  · exact (endures_expiry b.expiry).runUntil _ _ rfl
  · rfl

/-- A command is not answered exactly if it fails and the message about it does not expire
within the calendar. -/
theorem command_fst_eq_error_iff {did : DeviceRef} {command : Command} :
    (b.command did command).1 = .error .overflow ↔
      ¬ b.notifier.Lasts b.wall ∧ ∃ e, (b.sendCommand did command).1 = .error e ∧
      e.code ≠ .unknown := by
  -- a command may take time, but the wall clock stands while it is awaited
  have hlasts := b.expiry_sendCommand did command
  unfold Board.command
  split
  · rename_i state b' hsend
    simp [answer, hsend]
  · rename_i e b' hsend
    rw [hsend] at hlasts
    have hreport : (b'.report e).1 = false ↔ e.code ≠ .unknown ∧ ¬ b.notifier.Lasts b.wall := by
      rw [report_fst_eq_false_iff, lasts_iff, lasts_iff, hlasts]
    split
    · rename_i b'' hok
      rw [hok] at hreport
      simp only [Bool.true_eq_false, false_iff, not_and, not_not] at hreport
      simp only [refuse, answer, hsend, Except.error.injEq, reduceCtorEq, false_iff,
        not_and, not_exists]
      rintro hnot _ rfl hcode
      exact hnot (hreport hcode)
    · rename_i b'' hno
      rw [hno] at hreport
      simp only [true_iff] at hreport
      simp only [hsend, true_iff]
      exact ⟨hreport.2, e, rfl, hreport.1⟩

/-- There is an answer. -/
def Answer.IsGiven (a : Answer) : Prop := ∃ response, a.1 = .ok response

theorem isGiven_answer (b : Board) (status : Nat) (body : Body) :
    (b.answer status body).IsGiven := ⟨_, rfl⟩

theorem isGiven_command (h : b.notifier.Lasts b.wall) (did : DeviceRef) (command : Command) :
    (b.command did command).IsGiven := by
  cases hfirst : (b.command did command).1 with
  | ok response => exact ⟨response, hfirst⟩
  | error o =>
    cases o
    exact absurd h (command_fst_eq_error_iff.mp hfirst).1

theorem isGiven_viewOf (b : Board) (route : List Char) {f : ViewKind → Answer}
    (hf : ∀ kind, (f kind).IsGiven) : (orAnswer (b.viewOf route) f).IsGiven := by
  unfold viewOf
  split
  · exact b.isGiven_answer _ _
  · split
    · exact b.isGiven_answer _ _
    · exact hf _

theorem isGiven_deviceOf (b : Board) (device : List Char) {f : DeviceRef → Answer}
    (hf : ∀ did, (f did).IsGiven) : (orAnswer (b.deviceOf device) f).IsGiven := by
  unfold deviceOf
  split
  · exact b.isGiven_answer _ _
  · exact hf _

theorem isGiven_serve (h : b.notifier.Lasts b.wall) (r : Request) (method : String)
    (resource : Resource) : (b.serve r method resource).IsGiven := by
  cases resource with
  | view route =>
    refine b.isGiven_viewOf route fun kind => ?_
    split
    · unfold dropView
      split <;> exact ⟨_, rfl⟩
    · exact ⟨_, rfl⟩
  | command device =>
    refine b.isGiven_deviceOf device fun did => ?_
    split
    · exact isGiven_command h did _
    · exact ⟨_, rfl⟩
  | notification id =>
    simp only [serve, dismiss]
    split
    · exact ⟨_, rfl⟩
    · split <;> exact ⟨_, rfl⟩
  | debug =>
    simp only [serve]
    split
    · split <;> exact ⟨_, rfl⟩
    · exact ⟨_, rfl⟩
  | _ => exact ⟨_, rfl⟩

/-- Every request is answered while messages expire within the calendar. -/
theorem isGiven_respond (h : b.notifier.Lasts b.wall) (r : Request) :
    (b.respond r).IsGiven := by
  unfold respond
  split
  · exact b.isGiven_answer _ _
  · split
    · exact b.isGiven_answer _ _
    · rename_i resource _
      split
      · exact isGiven_serve h r _ resource
      · split
        · obtain ⟨response, hresponse⟩ := isGiven_serve h r "GET" resource
          exact ⟨response.headOnly, by simp [headOnly, hresponse, Except.map]⟩
        · exact b.isGiven_answer _ _

end Board

/-! ## Section 3 — views that nobody gave up -/

/-- A view of a kind has a task that goes on. -/
def Board.Runs (b : Board) (id : ViewId) (kind : ViewKind) : Prop :=
  ∃ t, b.task? id = some t ∧ t.kind = kind ∧ t.cancelled = false

theorem Step.runs {b b' : Board} {x : Happening} {id : ViewId} {kind : ViewKind}
    (h : Step b x b') (htidy : b.Tidy) (hfall : x.isFall = false) (hkept : x ≠ .dropped id)
    (hb : b.Runs id kind) : b'.Runs id kind := by
  obtain ⟨t, ht, hkind, hawake⟩ := hb
  cases h.fate htidy id with
  | other hx htask => exact ⟨t, htask.trans ht, hkind, hawake⟩
  | mounted hid htask =>
    rw [htidy.task?_eq_none (Nat.le_of_eq hid.symm)] at ht
    cases ht
  | dropped hheld => exact absurd rfl hkept
  | left hleft hcancelled =>
    rw [ht] at hleft
    cases hleft
    rw [hawake] at hcancelled
    cases hcancelled
  | @moved u m hmoved hcancelled hallows htask =>
    rw [ht] at hmoved
    cases hmoved
    exact ⟨_, htask, (b.turn_kind t m).trans hkind, (b.turn_cancelled t m).trans hawake⟩
  | fell => cases hfall

namespace Run

variable {b b' : Board} {h : List Happening} {id : ViewId} {kind : ViewKind}

theorem runs (hrun : Run b h b') (htidy : b.Tidy) (hno : ∀ x ∈ h, x.isFall = false)
    (hkept : .dropped id ∉ h) (hb : b.Runs id kind) : b'.Runs id kind := by
  induction hrun with
  | refl => exact hb
  | @step b₁ b₂ h₁ x hrun₁ hstep ih =>
    have hrest := ih (fun y hy => hno y (List.mem_append_left _ hy)) fun hmem =>
      hkept (List.mem_append_left _ hmem)
    refine hstep.runs (hrun₁.tidy htidy) (hno x (by simp)) ?_ hrest
    rintro rfl
    exact hkept (by simp)

/-- A view that was mounted in the course of a run, and not given up, goes on. -/
theorem runs_of_mounted {mounted : Nat} (hrun : Run b h b') (htidy : b.Tidy)
    (hno : ∀ x ∈ h, x.isFall = false) (hmounted : .mounted id kind mounted ∈ h)
    (hkept : .dropped id ∉ h) : b'.Runs id kind := by
  obtain ⟨h₁, h₂, b₂, rfl, _, hrun₁, hnew, hrun₂⟩ := hrun.exists_mounting htidy hmounted
  obtain ⟨stamp, htask⟩ := hnew.task
  refine hrun₂.runs (hrun₁.tidy htidy) (fun y hy => hno y (by simp [hy]))
    (fun hmem => hkept (by simp [hmem])) ?_
  exact ⟨_, htask, rfl, rfl⟩

end Run

/-! ## Section 4 — the views that are counted -/

/-- The views that were mounted at happenings. -/
def Happening.arrivals (h : List Happening) : List ViewId :=
  h.filterMap fun | .mounted id _ _ => some id | _ => none

/-- The views whose tasks have ended at happenings. -/
def Happening.departures (h : List Happening) : List ViewId :=
  h.filterMap fun | .left id => some id | _ => none

/-- The views that are counted are those that have a task, and with those that have left they
are all that arrived. -/
structure Board.Census (b : Board) (arrivals departures : List ViewId) : Prop where
  count : b.health.mounted = b.tasks.length
  all : arrivals.Perm (departures ++ b.tasks.map (·.id))
  nodup : arrivals.Nodup
  lt : ∀ id ∈ arrivals, id < b.nextId

namespace Board.Census

variable {b b' : Board} {arrivals departures : List ViewId}

theorem congr (hb : b.Census arrivals departures)
    (hids : b'.tasks.map (·.id) = b.tasks.map (·.id))
    (hcount : b'.health.mounted = b.health.mounted) (hnext : b'.nextId = b.nextId) :
    b'.Census arrivals departures where
  count := by
    have hlength := congrArg List.length hids
    simp only [List.length_map] at hlength
    rw [hcount, hb.count, hlength]
  all := by
    rw [hids]
    exact hb.all
  nodup := hb.nodup
  lt := by
    rw [hnext]
    exact hb.lt

theorem mount (hb : b.Census arrivals departures) (kind : ViewKind)
    (htasks : b'.tasks = (b.mount kind).2.tasks)
    (hcount : b'.health.mounted = b.health.mounted + 1) (hnext : b'.nextId = b.nextId + 1) :
    b'.Census (arrivals ++ [b.nextId]) departures where
  count := by
    rw [hcount, hb.count, htasks]
    simp [Board.mount]
  all := by
    rw [htasks]
    simp only [Board.mount, List.map_append, List.map_cons, List.map_nil, ← List.append_assoc]
    exact hb.all.append_right [b.nextId]
  nodup := by
    rw [List.nodup_append]
    refine ⟨hb.nodup, by simp, fun i hi j hj => ?_⟩
    rw [List.mem_singleton.mp hj]
    exact Nat.ne_of_lt (hb.lt i hi)
  lt := by
    intro i hi
    rw [hnext]
    rcases List.mem_append.mp hi with hi | hi
    · exact Nat.lt_succ_of_lt (hb.lt i hi)
    · rw [List.mem_singleton.mp hi]
      exact Nat.lt_succ_self _

theorem leave (hb : b.Census arrivals departures) (htidy : b.Tidy) {id : ViewId} {t : ViewTask}
    (ht : b.task? id = some t) : (b.finish id).Census arrivals (departures ++ [id]) := by
  have hmem : id ∈ b.tasks.map (·.id) :=
    List.mem_map.mpr ⟨t, Board.task?_mem ht, Board.task?_id ht⟩
  have hrest : (b.finish id).tasks.map (·.id) = (b.tasks.map (·.id)).erase id := by
    rw [htidy.tasks_nodup.erase_eq_filter, List.filter_map]
    simp only [Board.finish]
    congr 2
    funext u
    by_cases hu : u.id = id
    · simp [hu]
    · simp [hu]
  have hperm := List.perm_cons_erase hmem
  rw [← hrest] at hperm
  refine ⟨?_, ?_, hb.nodup, hb.lt⟩
  · have hlength := hperm.length_eq
    simp only [List.length_map, List.length_cons] at hlength
    have hcount := hb.count
    simp only [Board.finish, Health.unmount] at hlength ⊢
    omega
  · rw [List.append_assoc]
    exact hb.all.trans (hperm.append_left departures)

end Board.Census

theorem Board.census_start (s : Settings) (intervals : Intervals) (wall : Int)
    (firstToast : Uuid) :
    (start s intervals wall firstToast).Census [] [] := ⟨rfl, .refl [], .nil, by simp⟩

theorem Step.census {b b' : Board} {x : Happening} {arrivals departures : List ViewId}
    (h : Step b x b') (htidy : b.Tidy) (hfall : x.isFall = false)
    (hb : b.Census arrivals departures) :
    b'.Census (arrivals ++ Happening.arrivals [x])
      (departures ++ Happening.departures [x]) := by
  have hkept (hids : b'.tasks.map (·.id) = b.tasks.map (·.id))
    (hcount : b'.health.mounted = b.health.mounted)
      (hnext : b'.nextId = b.nextId) (harrivals : Happening.arrivals [x] = [])
      (hdepartures : Happening.departures [x] = []) :
      b'.Census (arrivals ++ Happening.arrivals [x])
        (departures ++ Happening.departures [x]) := by
    rw [harrivals, hdepartures, List.append_nil, List.append_nil]
    exact hb.congr hids hcount hnext
  cases h with
  | attend e =>
    obtain ⟨htasks, _, _, _, hnext, _⟩ := b.attend_frame e
    have hcount : (b.attend e).health = b.health := by
      cases e with
      | report e =>
        simp only [Board.attend, Board.report]
        split <;> rfl
      | _ => rfl
    exact hkept (by rw [htasks]) (by rw [hcount]) hnext rfl rfl
  | hold kind =>
    rw [show Happening.departures [.mounted b.nextId kind b.now] = [] from rfl, List.append_nil]
    exact hb.mount kind rfl rfl rfl
  | @ensure kind hkind =>
    rw [show Happening.departures [.mounted b.nextId kind b.now] = [] from rfl, List.append_nil,
      Board.ensureMounted_of_none hkind]
    exact hb.mount kind rfl rfl rfl
  | @release id hid =>
    refine hkept ?_ ?_ ?_ rfl rfl
    · rw [Board.release_of_mem hid]
      exact map_id_change b.tasks fun _ hu => hu
    · rw [Board.release_of_mem hid]
      rfl
    · rw [Board.release_of_mem hid]
      rfl
  | abandon hkind => exact hkept (map_id_change b.tasks fun _ hu => hu) rfl rfl rfl rfl
  | @leave id t ht hcancelled =>
    rw [show Happening.arrivals [.left id] = [] from rfl, List.append_nil]
    exact hb.leave htidy ht
  | @move id t m ht hcancelled hm hperforms =>
    refine hkept ?_ ?_ ?_ rfl rfl
    · rw [Board.move_of_performs ht hperforms]
      exact map_id_change b.tasks fun _ _ => (b.turn_id t m).trans (Board.task?_id ht)
    · rw [Board.move_of_performs ht hperforms]
      rfl
    · rw [Board.move_of_performs ht hperforms]
      rfl
  | fall => cases hfall
  | pass hn hsleeps => exact hkept rfl rfl rfl rfl rfl

namespace Run

variable {b b' : Board} {h : List Happening}

theorem census (hrun : Run b h b') (htidy : b.Tidy) (hno : ∀ x ∈ h, x.isFall = false)
    (hb : b.Census [] []) : b'.Census (Happening.arrivals h) (Happening.departures h) := by
  induction hrun with
  | refl => exact hb
  | @step b₁ b₂ h₁ x hrun₁ hstep ih =>
    have hrest := hstep.census (hrun₁.tidy htidy) (hno x (by simp))
      (ih fun y hy => hno y (List.mem_append_left _ hy))
    rwa [Happening.arrivals, Happening.departures, List.filterMap_append, List.filterMap_append]

/-- A view that was mounted and given up has left once when all is done at an instant, and
its slot is gone. -/
theorem left_of_dropped {id : ViewId} {kind : ViewKind} {mounted : Nat} (hrun : Run b h b')
    (htidy : b.Tidy) (hno : ∀ x ∈ h, x.isFall = false) (hhoused : b.Housed)
    (hb : b.Census [] []) (hmounted : .mounted id kind mounted ∈ h) (hdropped : .dropped id ∈ h)
    (hquiet : b'.Quiet) : b'.store.get? id = none ∧ (Happening.departures h).count id = 1 := by
  have hgiven := hrun.givenUp_of_dropped htidy hdropped
  have hcensus := hrun.census htidy hno hb
  refine ⟨hgiven.get?_eq_none (hrun.housed htidy hno hhoused) hquiet, ?_⟩
  have harrived : id ∈ Happening.arrivals h := List.mem_filterMap.mpr ⟨_, hmounted, rfl⟩
  -- a task that was given up does not sleep, and so it is not there any more
  have hnotask : id ∉ b'.tasks.map (·.id) := by
    intro hmem
    obtain ⟨t, ht, rfl⟩ := List.mem_map.mp hmem
    have hawake := (hquiet t ht).1
    rw [hgiven.cancelled t ((hrun.tidy htidy).task?_of_mem ht)] at hawake
    cases hawake
  have hleft : id ∈ Happening.departures h := by
    rcases List.mem_append.mp (hcensus.all.subset harrived) with hleft | htask
    · exact hleft
    · exact absurd htask hnotask
  have hnodup : (Happening.departures h).Nodup :=
    (List.nodup_append.mp (hcensus.all.nodup_iff.mp hcensus.nodup)).1
  exact List.count_eq_one_of_mem hnodup hleft

end Run

/-! ## Section 5 — views whose task fell -/

/-- A view has a slot, but no task that looks after it. -/
structure Board.Forsaken (b : Board) (id : ViewId) : Prop where
  lt : id < b.nextId
  task : b.task? id = none
  slot : (b.store.get? id).isSome = true

theorem Step.forsaken_of_fell {b b' : Board} {id : ViewId} {w : Moment}
    (h : Step b (.fell id w) b') (htidy : b.Tidy) (hsound : b.Sound) : b'.Forsaken id := by
  obtain ⟨_, htask, _, t, m, es, ht, _, _, hslot⟩ := h.of_fell
  obtain ⟨slot, hget, _⟩ := hsound id t ht
  refine ⟨h.lt_of_isOf htidy (by simp [Happening.isOf, Happening.id?]), htask, ?_⟩
  rw [hslot, hget]
  rfl

/-- A view that is forsaken stays so, also when it is given up. -/
theorem Step.forsaken {b b' : Board} {x : Happening} {id : ViewId} (h : Step b x b')
    (htidy : b.Tidy) (hb : b.Forsaken id) : b'.Forsaken id := by
  have hlt := Nat.lt_of_lt_of_le hb.lt h.nextId_le
  have hno {t : ViewTask} (ht : b.task? id = some t) : False := by
    rw [hb.task] at ht
    cases ht
  cases h.fate htidy id with
  | other hx htask hslot => exact ⟨hlt, htask.trans hb.task, hslot ▸ hb.slot⟩
  | mounted hid => exact absurd hid (Nat.ne_of_lt hb.lt)
  | dropped hheld htask hslot =>
    exact ⟨hlt, by rw [htask, hb.task, Option.map_none], hslot ▸ hb.slot⟩
  | left ht => exact (hno ht).elim
  | moved ht => exact (hno ht).elim
  | fell ht => exact (hno ht).elim

theorem Run.forsaken_of_fell {b b' : Board} {h : List Happening} {id : ViewId} {w : Moment}
    (hrun : Run b h b') (htidy : b.Tidy) (hsound : b.Sound) (hfell : .fell id w ∈ h) :
    b'.Forsaken id := by
  obtain ⟨h₁, h₂, b₁, b₂, rfl, hrun₁, hstep, hrun₂⟩ := hrun.exists_step_of_mem hfell
  have htidy₁ := hrun₁.tidy htidy
  have hfirst : b₂.Tidy ∧ b₂.Forsaken id :=
    ⟨hstep.tidy htidy₁, hstep.forsaken_of_fell htidy₁ (hrun₁.sound htidy hsound)⟩
  exact (hrun₂.preserves (P := fun b => b.Tidy ∧ b.Forsaken id)
    (fun _ _ _ hb hstep => ⟨hstep.tidy hb.1, hstep.forsaken hb.1 hb.2⟩) hfirst).2

end HouseBoard
