/-
Quiz.Proofs.Flow.MergedResponses — what is stored for a screen, over all its visits.

A flow has one table of answers and many players, one for each visit, and a
player can be given commands long after its visit. Nothing of what a player
responds gets to a screen other than its own: what is stored for a screen is
the merge of all that was responded in the visits to it, in order, and a record
keeps what was stored when its screen was left. At a screen that cannot be entered
no player is heard.

* `merged`, `get?_mergeAll` — responses merged in order: under every key there
  is what the latest response with that key says.
* `Flow.said`, `Flow.saidIn` — what was responded, each with the number of the
  visit whose player it came from.
* `Flow.Stored`, `Stored.perform` — the answers are these merges, whatever is
  done to a flow.
* `Stored.perform_records` — whatever is done, records are added at most, and
  only where a screen is left.
* `Flow.responses_merged` — along everything that is done to a flow that has
  begun.
-/
import Quiz.Proofs.Flow.VisitRecords

namespace Quiz

variable {α : Type}

/-! ## Responses merged in order -/

/-- What responses say together. -/
def mergeAll (rs : List Response) : Fields :=
  rs.foldl (fun answers r => answers.merge r.toFields) []

/-- The answers that are stored after responses: none before the first one. -/
def merged (rs : List Response) : Option Fields :=
  if rs.isEmpty then none else some (mergeAll rs)

theorem merged_concat (rs : List Response) (r : Response) :
    merged (rs ++ [r]) = some (((merged rs).getD []).merge r.toFields) := by
  have hall : merged (rs ++ [r]) = some ((mergeAll rs).merge r.toFields) := by
    simp [merged, mergeAll, List.foldl_append]
  rw [hall]
  cases rs <;> rfl

theorem merged_eq_none {rs : List Response} : merged rs = none ↔ rs = [] := by
  cases rs <;> simp [merged]

theorem eq_mergeAll_of_merged {rs : List Response} {answers : Fields}
    (h : merged rs = some answers) : answers = mergeAll rs := by
  unfold merged at h
  split at h
  · cases h
  · exact (Option.some.inj h).symm

theorem get?_foldl_merge (rs : List Response) (answers : Fields) (key : String) :
    (rs.foldl (fun answers r => answers.merge r.toFields) answers).get? key =
      (latest? (fun r => r.toFields.get? key) rs).or (answers.get? key) := by
  induction rs generalizing answers with
  | nil => rfl
  | cons r rest ih =>
    have hcons : latest? (fun r => r.toFields.get? key) (r :: rest) =
        (latest? (fun r => r.toFields.get? key) rest).or (r.toFields.get? key) := by
      rw [show r :: rest = (some r).toList ++ rest from rfl, latest?_append, latest?_toList]
      rfl
    rw [List.foldl_cons, ih, Table.get?_merge _ r.keys_toFields_nodup, hcons, Option.or_assoc]

/-- Under every key there is what the latest response with that key says. -/
theorem get?_mergeAll (rs : List Response) (key : String) :
    (mergeAll rs).get? key = latest? (fun r => r.toFields.get? key) rs := by
  rw [mergeAll, get?_foldl_merge, Table.get?_nil, Option.or_none]

theorem Player.closed_of_dispatch [Scale α] {p : Player α} {c : Command α}
    {d : Dispatched α} (h : p.dispatch c = .ok d) : d.player.closed = p.closed := by
  obtain ⟨state, delay, -, hplayer⟩ := Player.change_of_dispatch h
  rw [hplayer]

namespace Flow

/-! ## What was responded in a visit -/

/-- A response, with the number of the visit whose player it came from. -/
abbrev Said := Nat × Response

/-- What was responded in the visits to the screen at a position, given the
position of the screen of each visit. -/
def saidIn (visits : List Nat) (said : List Said) (index : Nat) : List Response :=
  (said.filter fun s => visits[s.1]? = some index).map Prod.snd

theorem saidIn_append (visits : List Nat) (earlier later : List Said) (index : Nat) :
    saidIn visits (earlier ++ later) index =
      saidIn visits earlier index ++ saidIn visits later index := by
  simp [saidIn]

/-- What was responded so far does not belong to the visits that follow. -/
theorem saidIn_of_numbered {visits : List Nat} {said : List Said}
    (numbered : ∀ s ∈ said, s.1 < visits.length) (more : List Nat) (index : Nat) :
    saidIn (visits ++ more) said index = saidIn visits said index := by
  have hsame : ∀ s ∈ said, decide ((visits ++ more)[s.1]? = some index) =
      decide (visits[s.1]? = some index) := fun s hs => by
    rw [List.getElem?_append_left (numbered s hs)]
  rw [saidIn, saidIn, List.filter_congr hsame]

section Steps

variable [Scale α]

/-- What a command given to the player of a visit brought out. -/
def spoken (visit : Nat) : Except Refused (FlowDispatched α) → List Said
  | .ok d => d.response.toList.map fun r => (visit, r)
  | .error _ => []

/-- What is responded when something is done to a flow. -/
def said (f : Flow α) (a : TimedAct α) : List Said :=
  match a.act with
  | .go _ => []
  | .command c => spoken f.visit (f.dispatch c)
  | .late ago c => spoken (f.visit - 1 - ago) (f.dispatchLate ago c)

/-- What is responded while several things are done to a flow. -/
def saidAll (f : Flow α) : List (TimedAct α) → List Said
  | [] => []
  | a :: rest => f.said a ++ (f.perform a).1.saidAll rest

end Steps

/-! ## What is stored -/

/-- For every screen there is stored what was responded in the visits to it;
`visits` are the positions of the screens visited so far. -/
structure Stored (f : Flow α) (visits : List Nat) (said : List Said) : Prop where
  /-- A player that is heard is that of the current screen. -/
  shown : f.player.closed = false → visits[f.visit]? = some f.index
  counted : visits.length = f.visit + 1
  numbered : ∀ s ∈ said, s.1 < visits.length
  stored : ∀ index, f.responses.get? index = merged (saidIn visits said index)
  finished_closed : f.finished = true → f.player.closed = true
  left_closed : ∀ p ∈ f.left, p.closed = true

namespace Stored

variable {f : Flow α} {visits : List Nat} {said : List Said}

/-- A response of the current player is merged into what is stored. -/
theorem mergeResponse (h : f.Stored visits said) (opened : f.player.closed = false)
    (r : Response) : (f.mergeResponse r).Stored visits (said ++ [(f.visit, r)]) where
  shown := h.shown
  counted := h.counted
  numbered s hs := by
    rcases List.mem_append.mp hs with hold | hnew
    · exact h.numbered s hold
    · obtain rfl := List.mem_singleton.mp hnew
      rw [h.counted]
      exact Nat.lt_succ_self _
  stored index := by
    have hshown := h.shown opened
    have hput : (f.mergeResponse r).responses =
        f.responses.put f.index (((f.responses.get? f.index).getD []).merge r.toFields) := rfl
    rw [hput, saidIn_append]
    by_cases hindex : f.index = index
    · subst hindex
      have hnew : saidIn visits [(f.visit, r)] f.index = [r] := by simp [saidIn, hshown]
      rw [Table.get?_put_same, hnew, merged_concat, h.stored]
    · have hnew : saidIn visits [(f.visit, r)] index = [] := by simp [saidIn, hshown, hindex]
      rw [Table.get?_put_other _ _ hindex, hnew, List.append_nil, h.stored]
  finished_closed := h.finished_closed
  left_closed := h.left_closed

/-- With every visit over, the flow comes to another screen. If it can be entered,
another visit begins, and nothing was responded in it; else the player that is there
is not heard. -/
theorem enter (h : f.Stored visits said) (ended : f.finished = true) (entering : Instant)
    (index : Nat) :
    (f.enter entering index).Stored
      (visits ++ (entriesIn (f.enter entering index).arrival).map Prod.fst) said := by
  have hclosed := h.finished_closed ended
  cases hentry : (f.screenAt index).entryFault? with
  | none =>
    have harrival : entriesIn (f.enter entering index).arrival = [f.entryAt index] := by
      rw [arrival_enter, hentry]
      rfl
    rw [harrival, enter_of_none hentry]
    exact
      { shown := fun _ => by
          have hvisit : f.left.length + 1 = visits.length := h.counted.symm
          show (visits ++ [index])[f.left.length + 1]? = some index
          rw [hvisit, List.getElem?_concat_length]
        counted := by
          rw [List.length_append, h.counted]
          rfl
        numbered := fun s hs => by
          rw [List.length_append]
          exact Nat.lt_add_right _ (h.numbered s hs)
        stored := fun i => by
          rw [saidIn_of_numbered h.numbered]
          exact h.stored i
        finished_closed := nofun
        left_closed := List.forall_mem_cons.mpr ⟨hclosed, h.left_closed⟩ }
  | some fault =>
    have harrival : entriesIn (f.enter entering index).arrival = [] := by
      rw [arrival_enter, hentry]
      rfl
    rw [harrival, List.map_nil, List.append_nil, enter_of_some hentry]
    exact
      { shown := fun opened => absurd (hclosed.symm.trans opened) (by decide)
        counted := h.counted
        numbered := h.numbered
        stored := h.stored
        finished_closed := nofun
        left_closed := h.left_closed }

/-- The visit that goes on ends. -/
theorem concluded (h : f.Stored visits said) (leaving : Instant) :
    Stored { (f.exit leaving).1 with finished := true } visits said :=
  { h with
    shown := nofun
    counted := h.counted
    finished_closed := fun _ => rfl }

/-- A move adds the screen that it enters to the visits. -/
theorem went (h : f.Stored visits said) {leaving entering : Instant} {destination : Destination}
    {result : Flow α × List FlowReport} (went : f.Went leaving entering destination result) :
    result.1.Stored (visits ++ (entriesIn result.2).map Prod.fst) said := by
  cases went with
  | nowhere | unknown => exact (List.append_nil visits).symm ▸ h
  | finishes => exact (List.append_nil visits).symm ▸ h.concluded leaving
  | changes =>
    rcases f.change_cases leaving entering _ with ⟨hended, hchange⟩ | ⟨-, hchange⟩
    all_goals rw [hchange]
    · exact h.enter hended entering _
    · exact (h.concluded leaving).enter rfl entering _

end Stored

section Steps

variable [Scale α] {f : Flow α} {visits : List Nat} {said : List Said}

/-- A command to the current player, and what it brings out. -/
theorem Stored.give (h : f.Stored visits said) (c : Command α) :
    (f.give c).Stored visits (said ++ spoken f.visit (f.dispatch c)) := by
  unfold Flow.give Flow.dispatch
  cases hplayer : f.player.dispatch c with
  | error refused => exact (List.append_nil said).symm ▸ h
  | ok d =>
    have hclosed := Player.closed_of_dispatch hplayer
    have hmoved : Stored { f with player := d.player } visits said :=
      { h with
        shown := fun opened => h.shown (hclosed.symm.trans opened)
        counted := h.counted
        finished_closed := fun finished => hclosed.trans (h.finished_closed finished) }
    cases hr : d.response with
    | none =>
      simp only [receive, hr]
      exact (List.append_nil said).symm ▸ hmoved
    | some r =>
      -- Only a player that is open responds.
      have hopened : f.player.closed = false := by
        refine Bool.of_not_eq_true fun hover => ?_
        rw [Player.dispatch_of_over (Or.inl hover)] at hplayer
        rw [← Except.ok.inj hplayer] at hr
        cases hr
      simp only [receive, hr]
      exact hmoved.mergeResponse (hclosed.trans hopened) r

/-- Whatever is done to a flow, what is stored is what was responded. -/
theorem Stored.perform (h : f.Stored visits said) (a : TimedAct α) :
    (f.perform a).1.Stored (visits ++ (entriesIn (f.perform a).2).map Prod.fst)
      (said ++ f.said a) := by
  obtain ⟨act, leaving, entering⟩ := a
  cases act with
  | go move =>
    exact (List.append_nil said).symm ▸ h.went (f.went_go leaving entering move)
  | command c =>
    exact (List.append_nil visits).symm ▸ h.give c
  | late ago c =>
    -- The players of the visits that are over are closed and say nothing.
    have hlate := dispatchLate_of_closed h.left_closed ago c
    have hperform : f.perform ⟨.late ago c, leaving, entering⟩ = (f, []) := by
      simp only [Flow.perform, hlate]
    have hsaid : f.said ⟨.late ago c, leaving, entering⟩ = [] := by
      simp only [Flow.said, hlate]
      rfl
    rw [hperform, hsaid]
    exact (List.append_nil visits).symm ▸ (List.append_nil said).symm ▸ h

/-! ## Records -/

/-- Something that is done to a flow leaves its screen, with `r` as the record: it
has what is stored for the screen at that moment. -/
structure Exits (f : Flow α) (a : TimedAct α) (r : Record) : Prop where
  going : f.finished = false
  reported : FlowReport.record r ∈ (f.perform a).2
  recorded : (f.perform a).1.records = f.records ++ [r]
  index : r.index = f.index
  response : r.response = f.responses.get? f.index

/-- Whatever is done to a flow, records are added at most, and only where a
screen is left. -/
theorem Stored.perform_records (h : f.Stored visits said) (a : TimedAct α) :
    (f.perform a).1.records = f.records ∨ ∃ r, f.Exits a r :=
  (records_of_perform h.left_closed a).imp_right fun ⟨going, reported, recorded⟩ =>
    ⟨_, going, reported, recorded, rfl, rfl⟩

/-! ## All that is done -/

/-- Whatever is done to a flow, one thing after the other, what is stored is
what was responded. -/
theorem Stored.performAll (h : f.Stored visits said) (acts : List (TimedAct α)) :
    (f.performAll acts).1.Stored (visits ++ (entriesIn (f.performAll acts).2).map Prod.fst)
      (said ++ f.saidAll acts) := by
  induction acts generalizing f visits said with
  | nil => exact (List.append_nil visits).symm ▸ (List.append_nil said).symm ▸ h
  | cons a rest ih =>
    have hlater := ih (h.perform a)
    rw [List.append_assoc, List.append_assoc, ← List.map_append, ← entriesIn_append] at hlater
    exact hlater

/-- Whatever is done to a flow, its records stay. -/
theorem Stored.records_kept (h : f.Stored visits said) (acts : List (TimedAct α)) :
    f.records <+: (f.performAll acts).1.records := by
  induction acts generalizing f visits said with
  | nil => exact List.prefix_rfl
  | cons a rest ih =>
    have hkept := ih (h.perform a)
    rcases h.perform_records a with hsame | ⟨r, hexits⟩
    · exact hsame ▸ hkept
    · exact (hexits.recorded ▸ List.prefix_append f.records [r]).trans hkept

theorem performAll_append (f : Flow α) (before after : List (TimedAct α)) :
    (f.performAll (before ++ after)).1 = ((f.performAll before).1.performAll after).1 := by
  induction before generalizing f with
  | nil => rfl
  | cons a rest ih => exact ih (f.perform a).1

/-- A record that was added was stored when a screen was left. -/
theorem Stored.exits (h : f.Stored visits said) {acts : List (TimedAct α)} {k : Nat} {r : Record}
    (hr : (f.performAll acts).1.records[k]? = some r) (added : f.records.length ≤ k) :
    ∃ before a after, acts = before ++ a :: after ∧
      (f.performAll before).1.records.length = k ∧ (f.performAll before).1.Exits a r := by
  induction acts generalizing f visits said with
  | nil => cases (List.getElem?_eq_none added).symm.trans hr
  | cons a rest ih =>
    have hlater (hk : (f.perform a).1.records.length ≤ k) :
        ∃ before b after, a :: rest = before ++ b :: after ∧
          (f.performAll before).1.records.length = k ∧ (f.performAll before).1.Exits b r := by
      obtain ⟨before, b, after, rfl, hcount, hexits⟩ := ih (h.perform a) hr hk
      exact ⟨a :: before, b, after, rfl, hcount, hexits⟩
    rcases h.perform_records a with hsame | ⟨r', hexits⟩
    · exact hlater (hsame ▸ added)
    · by_cases hk : (f.perform a).1.records.length ≤ k
      · exact hlater hk
      -- This is the act that added the record.
      · have hkept := (h.perform a).records_kept rest
        rw [hexits.recorded] at hk hkept
        have hcount : f.records.length = k := by
          rw [List.length_append, List.length_singleton] at hk
          omega
        have hsame : r' = r := by
          obtain ⟨more, hmore⟩ := hkept
          have hr' : ((f.perform a).1.performAll rest).1.records[k]? = some r := hr
          rw [← hmore, ← hcount] at hr'
          simpa using hr'
        exact ⟨[], a, rest, rfl, hcount, hsame ▸ hexits⟩

end Steps

/-! ## Flows from their beginning -/

/-- In a flow that begins nothing is stored. -/
theorem stored_new (screens : List Screen) (settings : Settings) (start : Nat) (now : Instant) :
    (new screens settings start now : Flow α).Stored [start] [] where
  shown := fun _ => rfl
  counted := rfl
  numbered := fun _ hs => absurd hs List.not_mem_nil
  stored := fun _ => rfl
  finished_closed := nofun
  left_closed := fun _ hp => absurd hp List.not_mem_nil

/-- What is stored in a flow that began as `first`, with the visits to the
screens at the positions `visits` so far, after all that was done to it. -/
structure Answered [Scale α] (first : Flow α) (acts : List (TimedAct α)) (last : Flow α)
    (visits : List Nat) : Prop where
  /-- Every response came from the player of one of the visits. -/
  spoken : ∀ s ∈ first.saidAll acts, s.1 < visits.length
  stored : ∀ index,
    last.responses.get? index = merged (saidIn visits (first.saidAll acts) index)
  absent_iff : ∀ index, last.responses.get? index = none ↔
    saidIn visits (first.saidAll acts) index = []
  latest : ∀ index answers, last.responses.get? index = some answers → ∀ key,
    answers.get? key =
      latest? (fun r => r.toFields.get? key) (saidIn visits (first.saidAll acts) index)
  /-- A command to the player of a visit that is over is not heard. -/
  silent : ∀ ago c, last.dispatchLate ago c = .ok ⟨last, none, []⟩
  /-- A record has what was stored when its screen was left. -/
  exits : ∀ k r, last.records[k]? = some r → ∃ before a after,
    acts = before ++ a :: after ∧ (first.performAll before).1.records.length = k ∧
      (first.performAll before).1.Exits a r
  /-- A record is not changed by what is done after it was added. -/
  kept : ∀ before after, acts = before ++ after →
    (first.performAll before).1.records <+: last.records

/-- Along everything that is done to a flow from its beginning, commands to the
players of visits that are over among it, what is stored for a screen is the
merge of what was responded in the visits to it, in order, and a record keeps
what was stored when its screen was left. A screen that cannot be entered is not
visited. -/
theorem responses_merged [Scale α] {screens : List Screen} {settings : Settings}
    {startAt : Option String} {start : Instant} {f : Flow α} {ws : List Warning}
    (begun : beginFlow screens settings startAt start = .ok (f, ws)) (acts : List (TimedAct α)) :
    Answered f acts (f.performAll acts).1
      (f.index :: (entriesIn (f.performAll acts).2).map Prod.fst) := by
  obtain ⟨-, hbegun⟩ := beginFlow_ok begun
  have hfirst : f.Stored [f.index] [] := by
    rw [hbegun]
    exact stored_new screens settings _ start
  have hrecords : f.records = [] := by
    rw [hbegun]
    rfl
  have hall := hfirst.performAll acts
  refine ⟨hall.numbered, hall.stored, fun index => ?_, fun index answers hanswers key => ?_,
    fun ago c => dispatchLate_of_closed hall.left_closed ago c, fun k r hr => ?_, ?_⟩
  · rw [hall.stored, merged_eq_none]
    rfl
  · rw [hall.stored] at hanswers
    rw [eq_mergeAll_of_merged hanswers, get?_mergeAll]
    rfl
  · exact hfirst.exits hr (hrecords ▸ Nat.zero_le k)
  · rintro before after rfl
    rw [performAll_append]
    exact (hfirst.performAll before).records_kept after

/-- Two screens with an input each. -/
def twoForms : List Screen :=
  let input (key : String) : Item := .input ⟨some key, false, .text, none, none, "", []⟩
  [{ noScreen with id := "first", content := [input "name"] },
    { noScreen with id := "second", content := [input "town"] }]

/-- The first input is filled in, then the second one; then the first one anew.
In between, the player of the first visit is given a command again. -/
def filledTwice : List (TimedAct Float) :=
  [⟨.command (.edit 0 "Ada"), 0, 0⟩, ⟨.go .next, 1000, 1000⟩, ⟨.late 0 (.edit 0 "Eve"), 1500, 1500⟩,
    ⟨.command (.edit 0 "Bath"), 1600, 1600⟩, ⟨.go .previous, 2000, 2000⟩,
    ⟨.command (.edit 0 "Bea"), 2100, 2100⟩]

theorem responses_merged_twice :
    ∃ (f : Flow Float) (ws : List Warning),
      beginFlow twoForms Settings.usual none 0 = .ok (f, ws) ∧
      (entriesIn (f.performAll filledTwice).2).map Prod.fst = [1, 0] ∧
      (f.performAll filledTwice).1.records.length = 2 ∧
      (saidIn [0, 1, 0] (f.saidAll filledTwice) 0).map Response.inputValues =
        [some [("name", "Ada")], some [("name", "Bea")]] ∧
      Answered f filledTwice (f.performAll filledTwice).1
        (f.index :: (entriesIn (f.performAll filledTwice).2).map Prod.fst) := by
  have h : (beginFlow twoForms Settings.usual none 0).toOption.any
      (fun begun : Flow Float × List Warning =>
        decide ((entriesIn (begun.1.performAll filledTwice).2).map Prod.fst = [1, 0] ∧
          (begun.1.performAll filledTwice).1.records.length = 2 ∧
          (saidIn [0, 1, 0] (begun.1.saidAll filledTwice) 0).map Response.inputValues =
            [some [("name", "Ada")], some [("name", "Bea")]])) = true := by
    decide +kernel
  obtain ⟨⟨f, ws⟩, hbegun, htest⟩ := Except.any_toOption.mp h
  obtain ⟨hvisits, hrecords, hsaid⟩ := of_decide_eq_true htest
  exact ⟨f, ws, hbegun, hvisits, hrecords, hsaid, responses_merged hbegun filledTwice⟩

end Flow

end Quiz
