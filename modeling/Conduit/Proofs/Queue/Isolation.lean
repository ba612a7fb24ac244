import Conduit.Proofs.Queue.Histories

/-!
# What subscribers get

Along every run the log accounts for the directory and for the publishes under way
(`Traffic.Books`). So what a subscriber has taken, with what its buffer still holds, is what was
published while it was subscribed, but for the copies that found its own buffer full, and the other
subscribers do not appear in it (`Traffic.isolated_of_run`).
-/

namespace Conduit.Traffic

/-! ## All subscribers -/

/-- What a buffer holds. -/
def held (s : Traffic) (q : String) (i : Nat) : List Wrapper := heldBy (s.directory.queue q)[i]?

/-- What a publish under way still owes to a buffer. -/
def owedBy (q : String) (i : Nat) : Option Publishing → List Wrapper
  | some P => if P.queue = q ∧ i ∈ P.left then [P.wrapper] else []
  | none => []

/-- What a publisher still owes to a buffer. -/
def owed (s : Traffic) (p q : String) (i : Nat) : List Wrapper :=
  owedBy q i (s.publishing.get? p)

/-- What came to a buffer from one publisher. -/
def offered (p q : String) (i : Nat) (log : List Event) : List Wrapper :=
  ((offers q i log).filter (·.publisher = p)).map (·.wrapper)

/-- A publish that began is accounted for: what was taken, what was refused and what is left. -/
structure Tally (p q : String) (report : Delivery) (left : Nat) (since before : List Event) :
    Prop where
  latest : ∀ q' w, .began p q' w ∉ since
  delivered : report.delivered = (tell (answer? p) since).count true
  failed : report.failed = (tell (answer? p) since).count false
  sum : report.delivered + report.failed + left = (current q before).length

/-- The log tells everything about the directory and about the publishes under way. -/
structure Books (s : Traffic) (log : List Event) : Prop where
  told : ∀ q i, Told log q i (s.directory.queue q)[i]?
  ids : ∀ q, ids q log = List.range (s.directory.queue q).length
  left : ∀ p P, s.publishing.get? p = some P →
    P.left.Nodup ∧ ∀ i ∈ P.left, isLive P.queue i log = true
  owed : ∀ p q i, offered p q i log ++ s.owed p q i = made q i p log
  tally : ∀ p P, s.publishing.get? p = some P →
    ∃ since before, log = since ++ .began p P.queue P.wrapper :: before ∧
      Tally p P.queue P.report P.left.length since before
  reports : ∀ after p q report before, log = after ++ .reported p q report :: before →
    ∃ since w earlier, before = since ++ .began p q w :: earlier ∧ Tally p q report 0 since earlier

theorem books_nil : Books {} [] where
  told q i := told_nil
  ids q := rfl
  left p P h := by cases h
  owed p q i := rfl
  tally p P h := by cases h
  reports after p q report before h :=
    absurd h (List.append_ne_nil_of_right_ne_nil _ (List.cons_ne_nil _ _)).symm

section

variable {s s' : Traffic} {log : List Event} {event : Option Event}

theorem queue_ne_of_busy {q : String} (hfree : s.busy q = false) {p : String} {P : Publishing}
    (h : s.publishing.get? p = some P) : P.queue ≠ q := by
  intro heq
  rw [busy, List.any_eq_false] at hfree
  exact hfree _ (mem_of_lookup h) (beq_iff_eq.2 heq)

/-- Whose turn it is has a buffer. -/
theorem Books.exists_subscriber (h : Books s log) {p q : String} {w : Wrapper} {i : Nat}
    {left : List Nat} {report : Delivery}
    (hp : s.publishing.get? p = some ⟨q, w, i :: left, report⟩) :
    ∃ sub, (s.directory.queue q)[i]? = some sub := by
  have hlive := (h.left p _ hp).2 i List.mem_cons_self
  rw [(h.told q i).live] at hlive
  cases hsub : (s.directory.queue q)[i]? with
  | none =>
    rw [hsub] at hlive
    cases hlive
  | some sub => exact ⟨sub, rfl⟩

theorem Books.told_of_does (h : Books s log) (hd : Does s event s') (q : String) (i : Nat) :
    Told (event.toList ++ log) q i (s'.directory.queue q)[i]? := by
  cases hd with
  | create q' =>
    rw [Directory.queue_create]
    exact h.told q i
  | exhausted q' => exact (h.told q i).other (by simp [Event.Concerns])
  | subscribe q' capacity _ =>
    rw [Directory.getElem?_queue_subscribe]
    split
    · rename_i hhere
      obtain ⟨rfl, rfl⟩ := hhere
      have hnew := h.told q (s.directory.queue q).length
      rw [List.getElem?_length] at hnew
      exact hnew.subscribed capacity
    · rename_i hhere
      exact (h.told q i).other fun hc ↦ hhere ⟨hc.1.symm, hc.2.symm⟩
  | unsubscribe q' i' _ =>
    rw [Directory.getElem?_queue_unsubscribe]
    split
    · rename_i hhere
      obtain ⟨rfl, rfl⟩ := hhere
      exact (h.told q i).unsubscribed
    · rename_i hhere
      exact (h.told q i).other fun hc ↦ hhere ⟨hc.1.symm, hc.2.symm⟩
  | @pop q' i' w directory hpop =>
    obtain ⟨sub, rest, hsub, hitems, hchanges⟩ := Directory.changes_pop hpop
    by_cases hhere : q = q' ∧ i = i'
    · obtain ⟨rfl, rfl⟩ := hhere
      rw [hchanges.here]
      exact (hsub ▸ h.told q i).popped hitems
    · rw [hchanges.elsewhere q i hhere]
      exact (h.told q i).other fun hc ↦ hhere ⟨hc.1.symm, hc.2.symm⟩
  | begin q' w _ => exact (h.told q i).other (by simp [Event.Concerns])
  | @push p q' w i' left report hp =>
    obtain ⟨sub, hsub⟩ := h.exists_subscriber hp
    obtain ⟨htaken, hchanges⟩ := Directory.changes_offer hsub w
    by_cases hhere : q = q' ∧ i = i'
    · obtain ⟨rfl, rfl⟩ := hhere
      rw [hchanges.here, htaken]
      exact (hsub ▸ h.told q i).pushed p w
    · rw [hchanges.elsewhere q i hhere]
      exact (h.told q i).other fun hc ↦ hhere ⟨hc.1.symm, hc.2.symm⟩
  | finish _ => exact (h.told q i).other (by simp [Event.Concerns])

theorem Books.ids_of_does (h : Books s log) (hd : Does s event s') (q : String) :
    Traffic.ids q (event.toList ++ log) = List.range (s'.directory.queue q).length := by
  have hids := h.ids q
  cases hd with
  | create q' =>
    rw [Directory.queue_create]
    exact hids
  | exhausted q' => simpa [Traffic.ids, id?] using hids
  | subscribe q' capacity _ =>
    rw [Directory.queue_subscribe]
    by_cases hq : q = q'
    · subst hq
      rw [if_pos rfl, List.length_append, List.length_singleton, List.range_succ, ← hids]
      simp [Traffic.ids, id?]
    · rw [if_neg hq, ← hids]
      simp [Traffic.ids, id?, Ne.symm hq]
  | unsubscribe q' i' _ =>
    rw [Directory.length_queue_unsubscribe, ← hids]
    simp [Traffic.ids, id?]
  | @pop q' i' w directory hpop =>
    obtain ⟨sub, rest, hsub, hitems, hchanges⟩ := Directory.changes_pop hpop
    rw [hchanges.length q, ← hids]
    simp [Traffic.ids, id?]
  | begin q' w _ => simpa [Traffic.ids, id?] using hids
  | @push p q' w i' left report hp =>
    obtain ⟨sub, hsub⟩ := h.exists_subscriber hp
    obtain ⟨htaken, hchanges⟩ := Directory.changes_offer hsub w
    rw [hchanges.length q, ← hids]
    simp [Traffic.ids, id?]
  | finish _ => simpa [Traffic.ids, id?] using hids

/-- The directory and the log agree on who is subscribed. -/
theorem Books.current_eq (h : Books s log) (q : String) :
    (s.directory.queue q).current = Traffic.current q log := by
  rw [Broadcast.current, Traffic.current, h.ids]
  exact List.filter_congr fun i _ ↦ (h.told q i).live.symm

theorem Books.mem_current_iff (h : Books s log) {q : String} {i : Nat} :
    i ∈ (s.directory.queue q).current ↔ isLive q i log = true := by
  rw [Broadcast.current, List.mem_filter, (h.told q i).live]
  constructor
  · exact And.right
  · intro hlive
    refine ⟨List.mem_range.2 (Nat.lt_of_not_le fun hle ↦ ?_), hlive⟩
    rw [List.getElem?_eq_none hle] at hlive
    cases hlive

theorem Books.left_of_does (h : Books s log) (hd : Does s event s') {p : String} {P : Publishing}
    (hP : s'.publishing.get? p = some P) :
    P.left.Nodup ∧ ∀ i ∈ P.left, isLive P.queue i (event.toList ++ log) = true := by
  cases hd with
  | create q => exact h.left p P hP
  | exhausted q => exact h.left p P hP
  | subscribe q capacity _ =>
    obtain ⟨hnodup, hlive⟩ := h.left p P hP
    refine ⟨hnodup, fun i hi ↦ ?_⟩
    simp [isLive, hlive i hi]
  | unsubscribe q id hfree =>
    obtain ⟨hnodup, hlive⟩ := h.left p P hP
    refine ⟨hnodup, fun i hi ↦ ?_⟩
    have hne := queue_ne_of_busy hfree hP
    simp [isLive, hlive i hi, Ne.symm hne]
  | pop _ => exact h.left p P hP
  | @begin p' q w _ =>
    rw [Dictionary.get?_insert] at hP
    split at hP
    · obtain rfl := Option.some.inj hP
      refine ⟨List.nodup_range.filter _, fun i hi ↦ ?_⟩
      exact h.mem_current_iff.1 hi
    · exact h.left p P hP
  | @push p' q w i left report hp =>
    rw [Dictionary.get?_insert] at hP
    split at hP
    · obtain rfl := Option.some.inj hP
      obtain ⟨hnodup, hlive⟩ := h.left p' _ hp
      exact ⟨(List.nodup_cons.1 hnodup).2, fun j hj ↦ hlive j (List.mem_cons_of_mem i hj)⟩
    · exact h.left p P hP
  | finish _ =>
    rw [Dictionary.get?_erase] at hP
    split at hP
    · cases hP
    · exact h.left p P hP

theorem Books.owed_of_does (h : Books s log) (hd : Does s event s') (p q : String) (i : Nat) :
    offered p q i (event.toList ++ log) ++ s'.owed p q i = made q i p (event.toList ++ log) := by
  have howed : offered p q i log ++ owedBy q i (s.publishing.get? p) = made q i p log :=
    h.owed p q i
  rw [Traffic.owed]
  cases hd with
  | create q' => exact howed
  | exhausted q' => simpa [offered, offers, offer?, made] using howed
  | subscribe q' capacity _ => simpa [offered, offers, offer?, made] using howed
  | unsubscribe q' id _ => simpa [offered, offers, offer?, made] using howed
  | pop _ => simpa [offered, offers, offer?, made] using howed
  | @begin p' q' w hidle =>
    have hoffered : offered p q i (.began p' q' w :: log) = offered p q i log := by
      simp [offered, offers, offer?]
    rw [Dictionary.get?_insert]
    change offered p q i (.began p' q' w :: log) ++ _ = made q i p (.began p' q' w :: log)
    rw [hoffered, made]
    by_cases hp : p = p'
    · subst hp
      rw [hidle, owedBy, List.append_nil] at howed
      rw [if_pos rfl, owedBy, howed]
      by_cases hq : q' = q
      · subst hq
        simp only [h.mem_current_iff, true_and]
        split
        · rfl
        · exact List.append_nil _
      · simp [hq]
    · rw [if_neg hp, if_neg fun hc ↦ hp hc.1.symm, howed]
  | @push p' q' w i' left report hp =>
    have hnotMem : i' ∉ left := (List.nodup_cons.1 (h.left p' _ hp).1).1
    rw [Dictionary.get?_insert]
    change offered p q i (.pushed p' q' i' w _ :: log) ++ _ = made q i p log
    generalize ((s.directory.queue q').offer w i').1 = taken
    have hoffered : offered p q i (.pushed p' q' i' w taken :: log) =
        offered p q i log ++ if (q' = q ∧ i' = i) ∧ p' = p then [w] else [] := by
      by_cases hhere : q' = q ∧ i' = i
      · by_cases hpub : p' = p <;> simp [offered, offers, offer?, hhere, hpub]
      · simp [offered, offers, offer?, hhere]
    rw [hoffered, ← howed, List.append_assoc]
    refine congrArg (offered p q i log ++ ·) ?_
    by_cases hpub : p = p'
    · subst hpub
      rw [hp, if_pos rfl, owedBy, owedBy]
      by_cases hq : q' = q
      · subst hq
        by_cases hi : i' = i
        · subst hi
          simp [hnotMem]
        · simp [hi, Ne.symm hi]
      · simp [hq]
    · rw [if_neg hpub, if_neg fun hc ↦ hpub hc.2.symm, List.nil_append]
  | @finish p' q' w report hp =>
    have hoffered : offered p q i (.reported p' q' report :: log) = offered p q i log := by
      simp [offered, offers, offer?]
    rw [Dictionary.get?_erase]
    change offered p q i (.reported p' q' report :: log) ++ _ = made q i p log
    rw [hoffered, ← howed]
    by_cases hpub : p = p'
    · subst hpub
      rw [hp, if_pos rfl]
      simp [owedBy]
    · rw [if_neg hpub]

/-- A buffer that was subscribed with some capacity has come to what it comes to by itself. -/
theorem Books.replays (h : Books s log) {q : String} {i c : Nat} (hc : .subscribed q i c ∈ log) :
    replay c (view q i log) = ⟨popped q i log, s.held q i, (offers q i log).map (·.taken)⟩ := by
  refine (h.told q i).replays c fun sub hsub ↦ ?_
  obtain ⟨sub', hsub', hcapacity⟩ := (h.told q i).capacity c hc
  exact Option.some.inj (hsub.symm.trans hsub') ▸ hcapacity

/-! ## Reports -/

/-- The event belongs to a publish of this publisher. -/
def Event.IsBy (p : String) : Event → Prop
  | .began p' _ _ | .pushed p' _ _ _ _ => p' = p
  | _ => False

theorem Tally.other {p q : String} {report : Delivery} {left : Nat} {since before : List Event}
    (h : Tally p q report left since before) {e : Event} (he : ¬ e.IsBy p) :
    Tally p q report left (e :: since) before := by
  have hanswer : answer? p e = none := by
    cases e with
    | pushed p' q' i w taken => exact if_neg he
    | _ => rfl
  have htell : tell (answer? p) (e :: since) = tell (answer? p) since := by
    rw [tell_cons, hanswer]
    exact List.append_nil _
  refine ⟨fun q' w hin ↦ ?_, htell ▸ h.delivered, htell ▸ h.failed, h.sum⟩
  rcases List.mem_cons.1 hin with rfl | hin
  · exact he rfl
  · exact h.latest q' w hin

/-- One more buffer has answered. -/
theorem Tally.pushed {p q : String} {report : Delivery} {left : Nat} {since before : List Event}
    (h : Tally p q report (left + 1) since before) (q' : String) (i : Nat) (w : Wrapper)
    (taken : Bool) :
    Tally p q (report.count taken) left (.pushed p q' i w taken :: since) before := by
  have htell : tell (answer? p) (.pushed p q' i w taken :: since) =
      tell (answer? p) since ++ [taken] := by
    simp [answer?]
  refine ⟨fun q' w hin ↦ ?_, ?_, ?_, ?_⟩
  · exact h.latest q' w ((List.mem_cons.1 hin).resolve_left nofun)
  · rw [htell, List.count_append, ← h.delivered]
    cases taken <;> rfl
  · rw [htell, List.count_append, ← h.failed]
    cases taken <;> rfl
  · rw [← h.sum]
    cases taken <;> simp only [Delivery.count] <;> simp <;> omega

theorem Books.tally_of_does (h : Books s log) (hd : Does s event s') {p : String} {P : Publishing}
    (hP : s'.publishing.get? p = some P) :
    ∃ since before, event.toList ++ log = since ++ .began p P.queue P.wrapper :: before ∧
      Tally p P.queue P.report P.left.length since before := by
  -- A publish under way goes on as it was unless the event is about its publisher.
  have hother {e : Event} (he : ¬ e.IsBy p) (hP : s.publishing.get? p = some P) :
      ∃ since before, e :: log = since ++ .began p P.queue P.wrapper :: before ∧
        Tally p P.queue P.report P.left.length since before := by
    obtain ⟨since, before, rfl, htally⟩ := h.tally p P hP
    exact ⟨e :: since, before, rfl, htally.other he⟩
  cases hd with
  | create q => exact h.tally p P hP
  | exhausted q => exact hother not_false hP
  | subscribe q capacity _ => exact hother not_false hP
  | unsubscribe q id _ => exact hother not_false hP
  | pop _ => exact hother not_false hP
  | @begin p' q w hidle =>
    rw [Dictionary.get?_insert] at hP
    split at hP
    · rename_i hpub
      obtain rfl := Option.some.inj hP
      subst hpub
      refine ⟨[], log, rfl, fun _ _ ↦ List.not_mem_nil, rfl, rfl, ?_⟩
      rw [← h.current_eq]
      exact Nat.zero_add _
    · rename_i hpub
      exact hother (fun heq ↦ hpub heq.symm) hP
  | @push p' q w i left report hp =>
    rw [Dictionary.get?_insert] at hP
    split at hP
    · rename_i hpub
      obtain rfl := Option.some.inj hP
      subst hpub
      obtain ⟨since, before, rfl, htally⟩ := h.tally p _ hp
      exact ⟨_ :: since, before, rfl, htally.pushed q i w _⟩
    · rename_i hpub
      exact hother (fun heq ↦ hpub heq.symm) hP
  | finish _ =>
    rw [Dictionary.get?_erase] at hP
    split at hP
    · cases hP
    · exact hother not_false hP

/-- Only who has been to all buffers reports. -/
theorem Books.reports_of_does (h : Books s log) (hd : Does s event s') {after before : List Event}
    {p q : String} {report : Delivery}
    (hlog : event.toList ++ log = after ++ .reported p q report :: before) :
    ∃ since w earlier, before = since ++ .began p q w :: earlier ∧
      Tally p q report 0 since earlier := by
  cases event with
  | none => exact h.reports after p q report before hlog
  | some e =>
    cases after with
    | nil =>
      obtain ⟨rfl, rfl⟩ := List.cons.inj hlog
      cases hd with
      | finish hp =>
        obtain ⟨since, earlier, rfl, htally⟩ := h.tally p _ hp
        exact ⟨since, _, earlier, rfl, htally⟩
    | cons e' after => exact h.reports after p q report before (List.cons.inj hlog).2

/-- All that holds of the traffic and its log holds after a step. -/
theorem Books.of_does (h : Books s log) (hd : Does s event s') : Books s' (event.toList ++ log) where
  told := h.told_of_does hd
  ids := h.ids_of_does hd
  left _ _ hP := h.left_of_does hd hP
  owed := h.owed_of_does hd
  tally _ _ hP := h.tally_of_does hd hP
  reports _ _ _ _ _ hlog := h.reports_of_does hd hlog

/-- All that holds of the traffic and its log holds after a run. -/
theorem Books.of_run (h : Books s log) {moves : List Move} {new : List Event}
    (hrun : s.run moves = some (s', new)) : Books s' (new ++ log) := by
  induction moves generalizing s log new with
  | nil =>
    obtain ⟨rfl, rfl⟩ := Prod.mk.inj (Option.some.inj hrun)
    exact h
  | cons m moves ih =>
    obtain ⟨s₁, event, later, hstep, hlater, rfl⟩ := run_cons.1 hrun
    rw [List.append_assoc]
    exact ih (h.of_does (does_of_step hstep)) hlater

end

/-! ## Runs -/

theorem books_of_run {moves : List Move} {s : Traffic} {log : List Event}
    (h : run {} moves = some (s, log)) : Books s log :=
  List.append_nil log ▸ books_nil.of_run h

/-- What a subscriber has taken and what its buffer holds are the copies that its buffer took, in
order. From each publisher it was offered what that one published while it was subscribed, each
once and in order. Whether a copy was taken, and all the rest, follows from the capacity and from
what happened to this buffer, whoever else there is. Each report counts those who were subscribed
when the publish began, and the numbers given out increase. -/
theorem isolated_of_run {moves : List Move} {s : Traffic} {log : List Event}
    (h : run {} moves = some (s, log)) :
    (∀ q i c, .subscribed q i c ∈ log →
      popped q i log ++ s.held q i = ((offers q i log).filter (·.taken)).map (·.wrapper) ∧
      (∀ p, offered p q i log ++ s.owed p q i = made q i p log) ∧
      replay c (view q i log) = ⟨popped q i log, s.held q i, (offers q i log).map (·.taken)⟩ ∧
      ∀ moves' s' log' q' i', run {} moves' = some (s', log') → .subscribed q' i' c ∈ log' →
        view q' i' log' = view q i log →
        popped q' i' log' = popped q i log ∧ s'.held q' i' = s.held q i) ∧
    (∀ after p q report before, log = after ++ .reported p q report :: before →
      ∃ since w earlier, before = since ++ .began p q w :: earlier ∧
        Tally p q report 0 since earlier) ∧
    ∀ q, (ids q log).Pairwise (· < ·) := by
  have hbooks := books_of_run h
  refine ⟨fun q i c hc ↦ ⟨(hbooks.told q i).balance, fun p ↦ hbooks.owed p q i, ?_, ?_⟩,
    hbooks.reports, fun q ↦ ?_⟩
  · exact hbooks.replays hc
  · intro moves' s' log' q' i' h' hc' hview
    have hreplay := (books_of_run h').replays hc'
    rw [hview, hbooks.replays hc] at hreplay
    obtain ⟨hpopped, hheld, -⟩ := Contents.mk.inj hreplay
    exact ⟨hpopped.symm, hheld.symm⟩
  · rw [hbooks.ids]
    exact List.pairwise_lt_range

/-- Two publishers whose copies cross: the first of two subscribers has room for only one. -/
def crossing : List Move :=
  [.create "t", .subscribe "t" 1, .subscribe "t" 0,
    .begin "a" "t" (.ofMessage (.ofRaw "a" [])), .begin "b" "t" (.ofMessage (.ofRaw "b" [])),
    .push "a", .push "b", .push "b", .push "a", .finish "a", .finish "b", .pop "t" 1]

/-- The second subscriber gets both copies, the later first. -/
theorem isolated_of_crossing : ∃ s log, run {} crossing = some (s, log) ∧
    popped "t" 0 log ++ s.held "t" 0 = [.ofMessage (.ofRaw "a" [])] ∧
    popped "t" 1 log ++ s.held "t" 1 = [.ofMessage (.ofRaw "b" []), .ofMessage (.ofRaw "a" [])] ∧
    s.held "t" 1 = [.ofMessage (.ofRaw "a" [])] := by
  have hrun : run {} crossing = some _ := rfl
  obtain ⟨hsubscribers, -, -⟩ := isolated_of_run hrun
  refine ⟨_, _, hrun, ?_, ?_, ?_⟩
  · exact (hsubscribers "t" 0 1 (by decide)).1.trans (by decide)
  · exact (hsubscribers "t" 1 0 (by decide)).1.trans (by decide)
  · decide

end Conduit.Traffic
