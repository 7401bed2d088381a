/-
HouseBoard.Proofs.Access — what the key decides, and what it does not.

Paths that begin with `/health` are open to everyone, and nothing can be changed through them
(Section 1).  A dashboard with a key turns every other request away that does not bring it, and
such a request leaves no trace: a session goes on as if it had never been made (Sections 2 and
3).  To a dashboard without a key the header means nothing: two sessions that differ in it alone
are the same (Section 4).
-/
import HouseBoard.Proofs.Session

namespace HouseBoard

/-! ## Section 1 — open paths -/

/-- A path that begins with `/health` leads to the resource of that name or nowhere. -/
theorem Resource.ofPath?_of_isOpen {path : List Char} {resource : Resource}
    (hopen : Board.isOpen path = true) (h : ofPath? path = some resource) :
    resource = .health := by
  obtain ⟨rest, rfl⟩ := List.isPrefixOf_iff_prefix.mp hopen
  -- the first segment is empty, and the second one begins as the word does
  obtain ⟨word, others, hword⟩ :
      ∃ word others, segments ("/health".toList ++ rest) = [] :: ('h' :: word) :: others := by
    have hcons : "/health".toList ++ rest = '/' :: 'h' :: ("ealth".toList ++ rest) := rfl
    obtain ⟨word, others, hrest⟩ := List.exists_cons_of_ne_nil
      (List.splitOnP_ne_nil (fun c => c == '/') ("ealth".toList ++ rest))
    refine ⟨word, others, ?_⟩
    rw [hcons, segments, List.splitOn_eq_splitOnP, List.splitOnP_cons_eq_if_modifyHead,
      if_pos (by decide), List.splitOnP_cons_eq_if_modifyHead, if_neg (by decide), hrest,
      List.modifyHead_cons]
  have hother (s : String) (hs : s.toList.head? ≠ some 'h') :
      String.ofList ('h' :: word) ≠ s := by
    rintro rfl
    simp at hs
  unfold ofPath? at h
  rw [hword] at h
  simp only [List.map_cons, String.ofList_nil] at h
  split at h
  · cases h
    rfl
  all_goals
    rename_i heq
    simp only [List.cons.injEq] at heq
    first
    | exact absurd heq.2.1 (hother _ (by decide))
    | cases h

namespace Board

variable {b : Board} {r r' : Request}

/-- Nothing changes through a path that is open to everyone. -/
theorem respond_snd_of_isOpen (b : Board) (hopen : isOpen r.path = true) :
    (b.respond r).2 = b := by
  unfold respond
  split
  · rfl
  · cases hresource : Resource.ofPath? r.path with
    | none => rfl
    | some resource =>
      obtain rfl := Resource.ofPath?_of_isOpen hopen hresource
      simp only
      split
      · rfl
      · split
        · rfl
        · rfl

/-! ## Section 2 — requests without the key -/

end Board

/-- A request has to bring a key and does not: the first header field of the key's name is
missing or has another value. -/
def Request.lacksKey (key : String) (r : Request) : Bool :=
  !Board.isOpen r.path && decide (r.headers.lookup "x-api-key" ≠ some key)

namespace Board

variable {b : Board} {r r' : Request} {key : String}

/-- A request that lacks the key is turned away, whatever the state, and changes nothing. -/
theorem respond_of_lacksKey (hkey : b.apiKey = some key) (hlacks : r.lacksKey key = true) :
    b.respond r = (.ok ⟨401, .empty⟩, b) := by
  simp only [Request.lacksKey, Bool.and_eq_true, Bool.not_eq_true', decide_eq_true_eq] at hlacks
  obtain ⟨hclosed, hother⟩ := hlacks
  have hheader : r.header? "x-api-key" ≠ some key :=
    fun h => hother (Option.filter_eq_some_iff.mp h).1
  have hadmits : b.admits r = false := by
    simp [admits, hclosed, hkey, hheader]
  rw [respond, hadmits]
  rfl

/-- A board on which all is done stays as it is when its tasks are let run. -/
theorem settle_of_quiet (hquiet : b.Quiet) : b.settle = b := by
  have hdue : ∀ t ∈ b.tasks, t.firstDue? b.now = none := by
    intro t ht
    rw [ViewTask.firstDue?, if_neg (by simp [(hquiet t ht).1]), List.min?_eq_none_iff,
      List.map_eq_nil_iff, List.filter_eq_nil_iff]
    intro e he
    have hlate : b.now < e.1 := (hquiet t ht).le_of_mem_timers he
    simpa using hlate
  have hready : b.ready = [] := by
    have hnone :
        (b.tasks.filterMap fun t => (t.firstDue? b.now).map fun stamp => (stamp, t.id)) = [] :=
      List.filterMap_eq_nil_iff.mpr fun t ht => by rw [hdue t ht, Option.map_none]
    simp only [ready, hnone, List.mergeSort_nil, List.map_nil]
  rw [settle, hready]
  rfl

/-- A request that changes nothing leaves a board on which all is done as it is. -/
theorem operate_of_respond (hquiet : b.Quiet) (h : (b.respond r).2 = b) :
    b.operate (.request r) = b := by
  rw [operate, asked, h, settle_of_quiet hquiet]

end Board

/-! ## Section 3 — sessions with a key -/

/-- The key of a dashboard is set at the start. -/
theorem Step.apiKey_eq {b b' : Board} {x : Happening} (h : Step b x b') :
    b'.apiKey = b.apiKey := by
  cases h with
  | attend e =>
    cases e with
    | report e =>
      simp only [Board.attend, Board.report]
      split <;> rfl
    | _ => rfl
  | hold kind => rfl
  | ensure hkind => rw [Board.ensureMounted_of_none hkind]; rfl
  | release hid => rw [Board.release_of_mem hid]; rfl
  | abandon hkind => rfl
  | leave ht hcancelled => rfl
  | move ht hcancelled hm hperforms => rw [Board.move_of_performs ht hperforms]; rfl
  | fall ht hcancelled hm hperforms =>
    obtain ⟨es, _, hes⟩ := Board.move_of_not_performs ht hperforms
    rw [hes]
    rfl
  | pass hn hsleeps => rfl

theorem Run.apiKey_eq {b b' : Board} {h : List Happening} (hrun : Run b h b') :
    b'.apiKey = b.apiKey :=
  hrun.preserves (P := fun b' => b'.apiKey = b.apiKey)
    (fun _ _ _ hb hstep => hstep.apiKey_eq.trans hb) rfl

/-- What the dashboard says to the one who asks it for something. -/
inductive Reply where
  | response (answer : Except Overflow Response)
  /-- The number of the view that was mounted. -/
  | held (id : ViewId)
  /-- Whether the view was held. -/
  | released (wasHeld : Bool)
  | outcome (result : Except RpcError DeviceState)
  /-- Whether the condition came to hold. -/
  | awaited (held : Bool)
  | nothing

namespace Board

/-- What the dashboard says when it is asked for something. -/
def reply (b : Board) : Operation → Reply
  | .request r => .response (b.respond r).1
  | .hold kind => .held (b.hold kind).1
  | .release id => .released (b.release id).1
  | .command did command => .outcome (b.sendCommand did command).1
  | .advance _ => .nothing
  | .await condition looks => .awaited (b.await condition looks).1
  | .attend _ => .nothing

/-- What is asked of a dashboard one after the other, what it says to each, and what
it is then. -/
def transcript : Board → List Operation → List (Operation × Reply × Board)
  | _, [] => []
  | b, op :: ops => (op, b.reply op, b.operate op) :: (b.operate op).transcript ops

end Board

/-- Whether something that is asked for is a request that lacks the key. -/
def Operation.lacksKey (key : String) : Operation → Bool
  | .request r => r.lacksKey key
  | _ => false

namespace Board

variable {b b' : Board} {key : String}

/-- A dashboard in order on which all is done stays so, with its key, whatever it is
asked for. -/
theorem operate_rests (hb : b.InOrder) (hquiet : b.Quiet) (op : Operation) :
    (b.operate op).InOrder ∧ (b.operate op).Quiet ∧ (b.operate op).apiKey = b.apiKey := by
  obtain ⟨⟨⟨_, hrun⟩, hb'⟩, hquiet'⟩ := operate_leads hb hquiet op
  exact ⟨hb', hquiet', hrun.run.apiKey_eq⟩

/-- Requests that lack the key can be left out of a session. -/
theorem transcript_filter (hb : b.InOrder) (hquiet : b.Quiet) (hkey : b.apiKey = some key)
    (ops : List Operation) :
    b.transcript (ops.filter fun op => !op.lacksKey key) =
        (b.transcript ops).filter (fun entry => !entry.1.lacksKey key) ∧
      (ops.filter fun op => !op.lacksKey key).foldl operate b = ops.foldl operate b := by
  induction ops generalizing b with
  | nil => exact ⟨rfl, rfl⟩
  | cons op ops ih =>
    obtain ⟨hb', hquiet', hkey'⟩ := operate_rests hb hquiet op
    obtain ⟨htranscript, hend⟩ := ih hb' hquiet' (hkey'.trans hkey)
    cases hlacks : op.lacksKey key with
    | false => simp [transcript, hlacks, htranscript, hend]
    | true =>
      have hsame : b.operate op = b := by
        cases op with
        | request r =>
          exact operate_of_respond hquiet (congrArg Prod.snd (respond_of_lacksKey hkey hlacks))
        | _ => cases hlacks
      rw [hsame] at htranscript hend
      simp [transcript, hlacks, hsame, htranscript, hend]

/-! ## Section 4 — sessions without a key -/

end Board

/-- Two requests are the same but for the key's header. -/
structure Request.SameButKey (r r' : Request) : Prop where
  method : r.method = r'.method
  path : r.path = r'.path
  body : r.body = r'.body
  headers : (r.headers.filter fun h => h.1 ≠ "x-api-key") = r'.headers.filter fun h =>
    h.1 ≠ "x-api-key"

/-- Entries of another name do not matter when a name is looked up. -/
theorem lookup_filter_ne {α β : Type} [DecidableEq α] {name other : α} (hne : name ≠ other)
    (entries : List (α × β)) :
    (entries.filter fun e => e.1 ≠ other).lookup name = entries.lookup name := by
  induction entries with
  | nil => rfl
  | cons e entries ih =>
    obtain ⟨key, value⟩ := e
    by_cases he : key = other
    · have hname : (name == key) = false := by simp [he, hne]
      rw [List.filter_cons_of_neg (by simp [he]), ih, List.lookup_cons, hname]
    · rw [List.filter_cons_of_pos (by simp [he]), List.lookup_cons, List.lookup_cons, ih]

namespace Request.SameButKey

variable {r r' : Request}

theorem header?_eq (h : r.SameButKey r') {name : String} (hname : name ≠ "x-api-key") :
    r.header? name = r'.header? name := by
  rw [header?, header?, ← lookup_filter_ne hname r.headers, ← lookup_filter_ne hname r'.headers,
    h.headers]

theorem read_eq (h : r.SameButKey r') {α : Type} (codec : Codec α) :
    r.read codec = r'.read codec := by
  rw [Request.read, Request.read, saysJson, saysJson, h.header?_eq (by decide), h.body]

end Request.SameButKey

/-- Two things that are asked for are the same but for the key's header of a request. -/
inductive Operation.SameButKey : Operation → Operation → Prop where
  | refl (op : Operation) : SameButKey op op
  | request {r r' : Request} (h : r.SameButKey r') : SameButKey (.request r) (.request r')

namespace Board

variable {b : Board} {r r' : Request}

/-- A dashboard without a key answers requests alike that are the same but for the
key's header. -/
theorem respond_congr (hkey : b.apiKey = none) (h : r.SameButKey r') :
    b.respond r = b.respond r' := by
  have hadmits (r : Request) : b.admits r = true := by simp [admits, hkey]
  have hserve (method : String) (resource : Resource) :
      b.serve r method resource = b.serve r' method resource := by
    cases resource with
    | command device => simp only [serve, h.read_eq]
    | debug => simp only [serve, h.read_eq]
    | _ => rfl
  simp only [respond, hadmits, h.path, h.method, hserve]

theorem reply_congr (hkey : b.apiKey = none) {op op' : Operation} (h : op.SameButKey op') :
    b.reply op = b.reply op' ∧ b.operate op = b.operate op' := by
  cases h with
  | refl => exact ⟨rfl, rfl⟩
  | request h => simp [reply, operate, asked, respond_congr hkey h]

/-- A dashboard without a key says and does the same in two sessions that differ in the
key's header alone. -/
theorem transcript_congr (hb : b.InOrder) (hquiet : b.Quiet) (hkey : b.apiKey = none)
    {ops ops' : List Operation} (h : List.Forall₂ Operation.SameButKey ops ops') :
    (b.transcript ops).map (·.2) = (b.transcript ops').map (·.2) := by
  induction h generalizing b with
  | nil => rfl
  | @cons op op' _ _ hop _ ih =>
    obtain ⟨hreply, hoperate⟩ := reply_congr hkey hop
    obtain ⟨hb', hquiet', hkey'⟩ := operate_rests hb hquiet op
    simp only [transcript, List.map_cons, ← hreply, ← hoperate,
      ih hb' hquiet' (hkey'.trans hkey)]

/-! ## Section 5 — the key -/

/-- The key of settings: an empty one is none. -/
theorem apiKey_start_eq_some_iff (s : Settings) (intervals : Intervals) (wall : Int)
    (firstToast : Uuid) (key : String) :
    (start s intervals wall firstToast).apiKey = some key ↔ s.server.apiKey = some key ∧
    key ≠ "" := by
  simp [start, Option.filter_eq_some_iff]

theorem apiKey_start_eq_none_iff (s : Settings) (intervals : Intervals) (wall : Int)
    (firstToast : Uuid) :
    (start s intervals wall firstToast).apiKey = none ↔ s.server.apiKey = none ∨
    s.server.apiKey = some "" := by
  cases hkey : s.server.apiKey <;> simp [start, hkey]

/-- With a key that is not empty, a request that does not bring it on a path that is not open is
turned away in every state that a run can reach, and changes nothing; and a session from which
such requests are left out goes on exactly as it did, with the same replies to all else and the
same board after each.  In every state, requests on open paths change nothing.  Without a key,
or with an empty one, two sessions that differ in the key's header alone are the same. -/
theorem key_guards (s : Settings) (intervals : Intervals) (wall : Int) (firstToast : Uuid) :
    (∀ key, s.server.apiKey = some key → key ≠ "" →
      (∀ h b r, Run (start s intervals wall firstToast) h b → r.lacksKey key = true →
        b.respond r = (.ok ⟨401, .empty⟩, b)) ∧
      ∀ ops : List Operation,
        (start s intervals wall firstToast).transcript (ops.filter fun op => !op.lacksKey key) =
          ((start s intervals wall firstToast).transcript ops).filter fun entry =>
            !entry.1.lacksKey key) ∧
    (∀ (b : Board) r, isOpen r.path = true → (b.respond r).2 = b) ∧
    (s.server.apiKey = none ∨ s.server.apiKey = some "" → ∀ ops ops' : List Operation,
      List.Forall₂ Operation.SameButKey ops ops' →
        ((start s intervals wall firstToast).transcript ops).map (·.2) =
          ((start s intervals wall firstToast).transcript ops').map (·.2)) := by
  have horder := inOrder_start s intervals wall firstToast
  have hquiet : (start s intervals wall firstToast).Quiet := fun t ht => nomatch ht
  refine ⟨fun key hset hne => ?_, fun b r hopen => b.respond_snd_of_isOpen hopen,
    fun hnone ops ops' hsame => ?_⟩
  · have hkey := (apiKey_start_eq_some_iff s intervals wall firstToast key).mpr ⟨hset, hne⟩
    refine ⟨fun h b r hrun hlacks => respond_of_lacksKey (hrun.apiKey_eq.trans hkey) hlacks,
      fun ops => ?_⟩
    exact (transcript_filter horder hquiet hkey ops).1
  · exact transcript_congr horder hquiet ((apiKey_start_eq_none_iff ..).mpr hnone) hsame

/-- A session in which a stranger mounts a view, an owner does the same, and the stranger
tries to unmount it. -/
theorem key_guards_strangers :
    let s : Settings := { server := { apiKey := some "sesame" } }
    let intervals : Intervals := ⟨200, 50, by decide, by decide⟩
    let stranger (method : String) : Request :=
      ⟨method, "/views/home".toList, [("x-api-key", "mellon")], ""⟩
    let owner : Request :=
      ⟨"GET", "/views/home".toList, [("x-api-key", "sesame"), ("x-api-key", "mellon")], ""⟩
    s.server.apiKey = some "sesame" ∧ (stranger "GET").lacksKey "sesame" = true ∧
      owner.lacksKey "sesame" = false ∧
      (start s intervals 0 ⟨0⟩).respond (stranger "GET") =
        (.ok ⟨401, .empty⟩, start s intervals 0 ⟨0⟩) ∧
      (start s intervals 0 ⟨0⟩).transcript [.request owner] =
        ((start s intervals 0 ⟨0⟩).transcript
          [.request (stranger "GET"), .request owner, .request (stranger "DELETE")]).filter
            fun entry => !entry.1.lacksKey "sesame" := by
  intro s intervals stranger owner
  obtain ⟨haway, hsession⟩ := (key_guards s intervals 0 ⟨0⟩).1 "sesame" rfl (by decide)
  have hlacks (method : String) : (stranger method).lacksKey "sesame" = true := rfl
  have howner : owner.lacksKey "sesame" = false := rfl
  refine ⟨rfl, hlacks "GET", howner, haway [] _ _ (.refl _) (hlacks "GET"), ?_⟩
  rw [← hsession]
  simp [Operation.lacksKey, hlacks, howner]

end Board

end HouseBoard
