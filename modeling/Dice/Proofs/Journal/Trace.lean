/-
# What a journal writes, and where

Set-ups and entries come in any order.  Of the set-ups, the first one counts for the stream and the
last one for the threshold.  An entry gets written once or not at all, and what is written does not
depend on what has been written before, although a handler keeps the layout of the entry before.

* `belongs_of_isOwnLogger`, `isOwnLogger_of_belongs`: which names hang below the root.  It is those
  that begin with the root and a dot, except that an empty name right below the root can cut off
  what follows it (`isOwnLogger_detachedPlace`);
* `Journal.Fits`: what a journal has to do with the set-ups so far, kept by every event;
* `Journal.told_entry`: what an entry adds to the streams;
* `Journal.course_written_once`: **all of this for any course of events.**
-/
import Dice.Journal
import Mathlib.Data.List.Infix

namespace Dice

/-! ## 1. The loggers below the root -/

/-- A logger with the name of the root, or one that begins with it and a dot. -/
def Belongs (logger : String) : Prop := logger = rootLogger ∨ ∃ name, logger = loggerNamed name

/-- A logger with an empty name right below the root, and anything after it. -/
def Detached (logger : String) : Prop := ∃ name, logger = loggerNamed ("." ++ name)

/-- The root as a path that is read from its end. -/
def rootBackwards : List Char := rootLogger.toList.reverse

@[simp] theorem ofList_rootBackwards : String.ofList rootBackwards.reverse = rootLogger := rfl

theorem loggerNamed_backwards (name : String) :
    (loggerNamed name).toList.reverse = name.toList.reverse ++ '.' :: rootBackwards := by
  simp [loggerNamed, rootBackwards, String.toList_append]

section Paths

variable {known : List String} {path rest : List Char}

theorem leadsUp_cons_of_ne {d : Char} (hd : d ≠ '.') (hpath : path ≠ []) :
    leadsUp known (d :: path) = leadsUp known path := by
  cases path with
  | nil => exact absurd rfl hpath
  | cons c cs => simp [leadsUp, hd]

/-- The way up from a dot. -/
theorem leadsUp_dot (hpath : path ≠ []) :
    leadsUp known ('.' :: path) = (String.ofList path.reverse == rootLogger
      || if known.contains (String.ofList path.reverse) then leadsUp known path
        else leadsUp known path.tail) := by
  cases path with
  | nil => exact absurd rfl hpath
  | cons c cs => simp [leadsUp]

/-- The way up ends at the root, with a dot before it. -/
theorem exists_of_leadsUp : ∀ {path : List Char}, leadsUp known path = true →
    ∃ rest, path = rest ++ '.' :: rootBackwards
  | [], h => by cases h
  | [_], h => by cases h
  | d :: c :: cs, h => by
    -- whether the path is taken up at the next character or at the one after
    have hnext : ∀ rest, c :: cs = rest ++ '.' :: rootBackwards →
        ∃ rest, d :: c :: cs = rest ++ '.' :: rootBackwards :=
      fun rest heq => ⟨d :: rest, by rw [heq, List.cons_append]⟩
    by_cases hd : d = '.'
    · subst hd
      rw [leadsUp_dot (List.cons_ne_nil c cs), Bool.or_eq_true, beq_iff_eq, List.tail_cons] at h
      rcases h with hroot | h
      · refine ⟨[], ?_⟩
        have hpath : (c :: cs).reverse = rootLogger.toList := by rw [← hroot, String.toList_ofList]
        rw [List.nil_append, rootBackwards, ← hpath, List.reverse_reverse]
      · split at h
        · obtain ⟨rest, heq⟩ := exists_of_leadsUp h
          exact hnext rest heq
        · obtain ⟨rest, heq⟩ := exists_of_leadsUp h
          exact hnext (c :: rest) (by rw [heq, List.cons_append])
    · rw [leadsUp_cons_of_ne hd (List.cons_ne_nil c cs)] at h
      obtain ⟨rest, heq⟩ := exists_of_leadsUp h
      exact hnext rest heq

theorem leadsUp_dot_root : leadsUp known ('.' :: rootBackwards) = true := by
  rw [leadsUp_dot (by decide), ofList_rootBackwards, beq_self_eq_true, Bool.true_or]

/-- Whatever loggers have been heard of, the way up comes to the root unless the dot below the root
is overlooked. -/
theorem leadsUp_append : ∀ {rest : List Char}, rest.getLast? ≠ some '.' →
    leadsUp known (rest ++ '.' :: rootBackwards) = true
  | [], _ => leadsUp_dot_root
  | [d], hlast => by
    have hd : d ≠ '.' := fun h => hlast (by rw [h]; rfl)
    rw [List.singleton_append, leadsUp_cons_of_ne hd (List.cons_ne_nil _ _)]
    exact leadsUp_dot_root
  | d :: c :: rest, hlast => by
    rw [List.getLast?_cons_cons] at hlast
    have hnext : leadsUp known (c :: rest ++ '.' :: rootBackwards) = true := leadsUp_append hlast
    have hafter : leadsUp known (rest ++ '.' :: rootBackwards) = true := by
      cases rest with
      | nil => exact leadsUp_dot_root
      | cons b bs =>
        rw [List.getLast?_cons_cons] at hlast
        exact leadsUp_append hlast
    have hnil : c :: rest ++ '.' :: rootBackwards ≠ [] := List.cons_ne_nil _ _
    by_cases hd : d = '.'
    · subst hd
      rw [List.cons_append, leadsUp_dot hnil, hnext, List.cons_append, List.tail_cons, hafter,
        ite_self, Bool.or_true]
    · rw [List.cons_append, leadsUp_cons_of_ne hd hnil]
      exact hnext

/-- A place below the empty name that is right below the root, from its path. -/
def detachedPlace (path : List Char) : String :=
  String.ofList (path ++ '.' :: '.' :: rootBackwards).reverse

theorem length_detachedPlace (path : List Char) :
    (detachedPlace path).length = path.length + 10 := by
  rw [detachedPlace, String.length_ofList, List.length_reverse, List.length_append,
    List.length_cons, List.length_cons]
  rfl

theorem detachedPlace_ne {name : String} (hname : name.length < 10) (path : List Char) :
    detachedPlace path ≠ name := by
  intro h
  have hlength := length_detachedPlace path
  rw [h] at hlength
  omega

/-- From a place below the empty name the way up never comes to the root, if all places on it have
been heard of and the empty name itself has not. -/
theorem leadsUp_detached (hempty : loggerNamed "" ∉ known) : ∀ {path : List Char},
    (∀ above, above <:+ path → detachedPlace above ∈ known) →
    leadsUp known (path ++ '.' :: '.' :: rootBackwards) = false
  | [], _ => by
    have hname : String.ofList ('.' :: rootBackwards).reverse = loggerNamed "" := rfl
    have hcontains : known.contains (loggerNamed "") = false := by simpa using hempty
    rw [List.nil_append, leadsUp_dot (List.cons_ne_nil _ _), hname, hcontains]
    rfl
  | d :: path, habove => by
    have hpath : leadsUp known (path ++ '.' :: '.' :: rootBackwards) = false :=
      leadsUp_detached hempty fun above h => habove above (h.trans (List.suffix_cons d path))
    have hnil : path ++ '.' :: '.' :: rootBackwards ≠ [] := by simp
    by_cases hd : d = '.'
    · subst hd
      have hknown := habove path (List.suffix_cons '.' path)
      rw [List.cons_append, leadsUp_dot hnil, ← detachedPlace,
        beq_false_of_ne (detachedPlace_ne (by decide) path), List.contains_iff_mem.mpr hknown]
      exact hpath
    · rw [List.cons_append, leadsUp_cons_of_ne hd hnil]
      exact hpath

end Paths

theorem belongs_of_isOwnLogger {known : List String} {logger : String}
    (h : isOwnLogger known logger = true) : Belongs logger := by
  rw [isOwnLogger, Bool.or_eq_true, beq_iff_eq] at h
  refine h.imp_right fun hleads => ?_
  obtain ⟨rest, hrest⟩ := exists_of_leadsUp hleads
  refine ⟨String.ofList rest.reverse, ?_⟩
  rw [← String.toList_inj, ← List.reverse_inj, hrest, loggerNamed_backwards, String.toList_ofList,
    List.reverse_reverse]

theorem isOwnLogger_of_belongs {known : List String} {logger : String} (h : Belongs logger)
    (hdetached : ¬Detached logger) : isOwnLogger known logger = true := by
  rw [isOwnLogger, Bool.or_eq_true, beq_iff_eq]
  rcases h with h | ⟨name, rfl⟩
  · exact .inl h
  · rw [loggerNamed_backwards]
    refine .inr (leadsUp_append ?_)
    rw [List.getLast?_reverse]
    intro hhead
    obtain ⟨cs, hcs⟩ := List.head?_eq_some_iff.mp hhead
    refine hdetached ⟨String.ofList cs, congrArg loggerNamed ?_⟩
    rw [← String.toList_inj, hcs]
    simp

theorem Detached.exists_place {logger : String} (h : Detached logger) :
    ∃ path, logger = detachedPlace path := by
  obtain ⟨name, rfl⟩ := h
  refine ⟨name.toList.reverse, ?_⟩
  rw [← String.toList_inj, ← List.reverse_inj, loggerNamed_backwards]
  simp [detachedPlace, rootBackwards]

/-- A place below the empty name is a strange one, if all places on the way up have been heard of
and the empty name itself has not. -/
theorem isOwnLogger_detachedPlace {known : List String} {path : List Char}
    (hempty : loggerNamed "" ∉ known)
    (habove : ∀ above, above <:+ path → detachedPlace above ∈ known) :
    isOwnLogger known (detachedPlace path) = false := by
  rw [isOwnLogger, beq_false_of_ne (detachedPlace_ne (by decide) path), Bool.false_or,
    detachedPlace, String.toList_ofList, List.reverse_reverse]
  exact leadsUp_detached hempty habove

namespace Journal

/-! ## 2. What a journal has to do with the set-ups -/

/-- The flags of the set-ups among some events, in their order. -/
def setUps : List Event → List Bool
  | [] => []
  | .setUp verbose :: events => verbose :: setUps events
  | .entry _ :: events => setUps events

/-- The journal after several events. -/
def following (j : Journal) (events : List Event) : Journal :=
  events.foldl (fun j event => (j.after event).1) j

/-- The threshold that stands for the root, which has the one of strangers until it has its own. -/
def rootThreshold (j : Journal) : Level := if j.threshold = 0 then Level.warning else j.threshold

/-- Whether a level passes is answered as the root's threshold has it, at least for the loggers that
surely belong to it.  For others the answer can be no more generous. -/
def Fair (j : Journal) (logger : String) (level : Level) (passes : Bool) : Prop :=
  (passes = true → j.rootThreshold ≤ level) ∧
  (Belongs logger → ¬Detached logger → j.rootThreshold ≤ level → passes = true)

/-- **What a journal has to do with the set-ups so far.**  It has been offered one stream by each.
The threshold is that of the last one.  There is one handler, to the stream of the first one, or
none if there was no set-up.  What has been ruled since the last one is fair. -/
structure Fits (j : Journal) (flags : List Bool) : Prop where
  streams : j.streams = flags.length
  threshold : j.threshold = (flags.getLast?.map thresholdFor).getD 0
  handlers : (flags = [] ∧ j.handlers = []) ∨ (flags ≠ [] ∧ ∃ layout, j.handlers = [⟨0, layout⟩])
  rulings : ∀ r ∈ j.rulings, j.Fair r.logger r.level r.passes

section Invariant

variable {j : Journal} {flags : List Bool}

theorem fits_closed : closed.Fits [] := ⟨rfl, rfl, .inl ⟨rfl, rfl⟩, nofun⟩

theorem thresholdFor_ne_zero (verbose : Bool) : thresholdFor verbose ≠ 0 := by
  cases verbose <;> decide

theorem thresholdFor_le_warning (verbose : Bool) : thresholdFor verbose ≤ Level.warning := by
  cases verbose <;> decide

theorem Fits.rootThreshold_eq (h : j.Fits flags) {verbose : Bool}
    (hlast : flags.getLast? = some verbose) : j.rootThreshold = thresholdFor verbose := by
  have hthreshold : j.threshold = thresholdFor verbose := by rw [h.threshold, hlast]; rfl
  rw [rootThreshold, hthreshold, if_neg (thresholdFor_ne_zero verbose)]

theorem Fits.rootThreshold_le_warning (h : j.Fits flags) : j.rootThreshold ≤ Level.warning := by
  cases hlast : flags.getLast? with
  | some verbose =>
    rw [h.rootThreshold_eq hlast]
    exact thresholdFor_le_warning verbose
  | none =>
    have hthreshold : j.threshold = 0 := by rw [h.threshold, hlast]; rfl
    exact Int.le_of_eq (if_pos hthreshold)

/-- A strange logger does not have a lower threshold than the root. -/
theorem Fits.rootThreshold_le (h : j.Fits flags) (logger : String) :
    j.rootThreshold ≤ j.thresholdOf logger := by
  unfold thresholdOf
  split
  · rename_i hown
    rw [Bool.and_eq_true, bne_iff_ne] at hown
    exact Int.le_of_eq (if_neg hown.2)
  · exact h.rootThreshold_le_warning

theorem thresholdOf_of_own {logger : String} (hown : isOwnLogger j.known logger = true) :
    j.thresholdOf logger = j.rootThreshold := by
  by_cases hthreshold : j.threshold = 0
  · simp [thresholdOf, rootThreshold, hown, hthreshold]
  · simp [thresholdOf, rootThreshold, hown, hthreshold]

/-- **An answer is fair**, whether it is given anew or remembered. -/
theorem Fits.passes (h : j.Fits flags) (e : Entry) : j.Fair e.logger e.level (j.passes e) := by
  unfold Journal.passes
  split
  · rename_i r hfind
    have hmem := List.mem_of_find?_eq_some hfind
    have hsame := List.find?_some hfind
    simp only [Bool.and_eq_true, beq_iff_eq] at hsame
    rw [← hsame.1, ← hsame.2]
    exact h.rulings r hmem
  · refine ⟨fun hpasses => ?_, fun hbelongs hdetached hlevel => ?_⟩
    · exact Int.le_trans (h.rootThreshold_le e.logger) (of_decide_eq_true hpasses)
    · have hown : isOwnLogger j.known e.logger = true := isOwnLogger_of_belongs hbelongs hdetached
      rw [thresholdOf_of_own hown]
      exact decide_eq_true hlevel

/-! ## 3. Every event keeps that -/

theorem Fits.setUp (h : j.Fits flags) (verbose : Bool) :
    (j.setUp verbose).Fits (flags ++ [verbose]) where
  streams := by simp [Journal.setUp, h.streams]
  threshold := by simp [Journal.setUp]
  handlers := by
    refine .inr ⟨by simp, ?_⟩
    rcases h.handlers with ⟨hflags, hnone⟩ | ⟨-, layout, hone⟩
    · have hstreams : j.streams = 0 := by rw [h.streams, hflags]; rfl
      exact ⟨.bare, by simp [Journal.setUp, hnone, hstreams]⟩
    · exact ⟨layout, by simp [Journal.setUp, hone]⟩
  rulings := nofun

theorem Fits.hear (h : j.Fits flags) (logger : String) : (j.hear logger).Fits flags :=
  ⟨h.streams, h.threshold, h.handlers, h.rulings⟩

theorem Fits.rule (h : j.Fits flags) (e : Entry) : (j.rule e).Fits flags where
  streams := h.streams
  threshold := h.threshold
  handlers := h.handlers
  rulings := by
    intro r hr
    rcases List.mem_cons.mp hr with rfl | hr
    · exact h.passes e
    · exact h.rulings r hr

/-- **The one handler** takes the layout of the entry, and only its own stream is written to. -/
theorem emit_of_handler {layout : Layout} (hone : j.handlers = [⟨0, layout⟩]) (e : Entry)
    (haccepts : j.accepts e = true) :
    j.emit e = ({ j with handlers := [⟨0, e.layout⟩] },
      (List.replicate j.streams "").modify 0 (· ++ e.text)) := by
  rw [emit, if_pos haccepts, hone]
  rfl

theorem emit_of_not_accepts {e : Entry} (haccepts : j.accepts e ≠ true) :
    j.emit e = (j, List.replicate j.streams "") :=
  if_neg haccepts

theorem emit_of_no_handler (hnone : j.handlers = []) (e : Entry) :
    j.emit e = (j, List.replicate j.streams "") := by
  by_cases haccepts : j.accepts e = true
  · obtain ⟨threshold, handlers, streams, known, rulings⟩ := j
    cases hnone
    exact if_pos haccepts
  · exact emit_of_not_accepts haccepts

theorem Fits.emit (h : j.Fits flags) (e : Entry) : (j.emit e).1.Fits flags := by
  by_cases haccepts : j.accepts e = true
  · rcases h.handlers with ⟨-, hnone⟩ | ⟨hflags, layout, hone⟩
    · rw [emit_of_no_handler hnone]
      exact h
    · rw [emit_of_handler hone e haccepts]
      exact ⟨h.streams, h.threshold, .inr ⟨hflags, e.layout, rfl⟩, h.rulings⟩
  · rw [emit_of_not_accepts haccepts]
    exact h

/-- **One event.** -/
theorem Fits.after (h : j.Fits flags) (event : Event) :
    (j.after event).1.Fits (flags ++ setUps [event]) := by
  cases event with
  | setUp verbose => exact h.setUp verbose
  | entry e =>
    rw [setUps, setUps, List.append_nil]
    exact ((h.hear e.logger).rule e).emit e

theorem setUps_cons (event : Event) (events : List Event) :
    setUps (event :: events) = setUps [event] ++ setUps events := by
  cases event <;> rfl

/-- **Any events**, one after the other. -/
theorem Fits.following (h : j.Fits flags) (events : List Event) :
    (j.following events).Fits (flags ++ setUps events) := by
  induction events generalizing j flags with
  | nil =>
    rw [setUps, List.append_nil]
    exact h
  | cons event events ih =>
    rw [setUps_cons, ← List.append_assoc]
    exact ih (h.after event)

end Invariant

/-! ## 4. What an event adds to the streams -/

/-- What an event adds to one of the streams, which are counted as they have been offered. -/
def told (j : Journal) (event : Event) (n : Nat) : String := (j.after event).2[n]?.getD ""

/-- What the event at some place of a course adds to a stream. -/
def addition (events : List Event) (place n : Nat) : String :=
  ((closed.course events)[place]?.bind fun outcome => outcome.2[n]?).getD ""

theorem getElem?_course (j : Journal) (event : Event) (later : List Event) :
    ∀ before, (j.course (before ++ event :: later))[before.length]?
      = some ((j.following before).after event)
  | [] => rfl
  | first :: before => getElem?_course (j.after first).1 event later before

theorem addition_append (before : List Event) (event : Event) (later : List Event) (n : Nat) :
    addition (before ++ event :: later) before.length n
      = (closed.following before).told event n := by
  rw [addition, getElem?_course]
  rfl

theorem getD_replicate (k n : Nat) : (List.replicate k "")[n]?.getD "" = "" := by
  rw [List.getElem?_replicate]
  split <;> rfl

theorem told_setUp (j : Journal) (verbose : Bool) (n : Nat) : j.told (.setUp verbose) n = "" :=
  getD_replicate (j.streams + 1) n

theorem passes_rule (j : Journal) (e : Entry) : (j.rule e).passes e = j.passes e := by
  simp [rule, passes]

theorem accepts_rule (j : Journal) (e : Entry) : (j.rule e).accepts e = j.accepts e := by
  rw [accepts, passes_rule]
  rfl

section Told

variable {j : Journal} {flags : List Bool}

/-- **What an entry adds**: its text to the first stream if it is accepted, and nothing to any
other. -/
theorem told_entry (h : j.Fits flags) (e : Entry) (n : Nat) :
    j.told (.entry e) n
      = if (j.hear e.logger).accepts e = true ∧ flags ≠ [] ∧ n = 0 then e.text else "" := by
  have hfits := (h.hear e.logger).rule e
  have htold : j.told (.entry e) n = (((j.hear e.logger).rule e).emit e).2[n]?.getD "" := rfl
  rw [htold, ← accepts_rule]
  by_cases haccepts : ((j.hear e.logger).rule e).accepts e = true
  · rcases hfits.handlers with ⟨hflags, hnone⟩ | ⟨hflags, layout, hone⟩
    · rw [emit_of_no_handler hnone, getD_replicate, if_neg fun h => h.2.1 hflags]
    · have hpos : 0 < ((j.hear e.logger).rule e).streams := by
        rw [hfits.streams]
        exact List.length_pos_iff.mpr hflags
      rw [emit_of_handler hone e haccepts]
      dsimp only
      cases n with
      | zero => simp [haccepts, hflags, hpos]
      | succ n =>
        rw [List.getElem?_modify_ne _ _ (Nat.zero_ne_add_one n), getD_replicate,
          if_neg fun h => Nat.succ_ne_zero n h.2.2]
  · rw [emit_of_not_accepts haccepts, getD_replicate, if_neg fun h => haccepts h.1]

/-- What is accepted belongs to the root and reaches its threshold. -/
theorem Fits.of_accepts (h : j.Fits flags) {e : Entry} (haccepts : j.accepts e = true) :
    Belongs e.logger ∧ j.rootThreshold ≤ e.level := by
  rw [accepts, Bool.and_eq_true] at haccepts
  exact ⟨belongs_of_isOwnLogger haccepts.2, (h.passes e).1 haccepts.1⟩

theorem Fits.accepts (h : j.Fits flags) {e : Entry} (hbelongs : Belongs e.logger)
    (hdetached : ¬Detached e.logger) (hlevel : j.rootThreshold ≤ e.level) :
    j.accepts e = true := by
  rw [Journal.accepts, Bool.and_eq_true]
  exact ⟨(h.passes e).2 hbelongs hdetached hlevel, isOwnLogger_of_belongs hbelongs hdetached⟩

end Told

/-! ## 5. Entries that are due -/

/-- There was a set-up, the logger belongs to the root, and the level reaches the threshold of the
last set-up. -/
def Due (before : List Event) (e : Entry) : Prop :=
  ∃ verbose, (setUps before).getLast? = some verbose ∧ Belongs e.logger ∧
    thresholdFor verbose ≤ e.level

section Due

variable {before : List Event} {e : Entry} {n : Nat}

theorem fits_following (before : List Event) : (closed.following before).Fits (setUps before) :=
  fits_closed.following before

/-- Only what is due is written, and then it is the text, to the first stream. -/
theorem due_of_told (h : (closed.following before).told (.entry e) n ≠ "") :
    Due before e ∧
      ∀ m, (closed.following before).told (.entry e) m = if m = 0 then e.text else "" := by
  have hfits := fits_following before
  rw [told_entry hfits] at h
  have hcond : _ ∧ _ ∧ n = 0 := not_not.mp fun hcond => h (if_neg hcond)
  obtain ⟨haccepts, hflags, -⟩ := hcond
  refine ⟨?_, fun m => ?_⟩
  · obtain ⟨verbose, hlast⟩ := Option.isSome_iff_exists.mp (List.getLast?_isSome.mpr hflags)
    obtain ⟨hbelongs, hlevel⟩ := (hfits.hear e.logger).of_accepts haccepts
    rw [(hfits.hear e.logger).rootThreshold_eq hlast] at hlevel
    exact ⟨verbose, hlast, hbelongs, hlevel⟩
  · rw [told_entry hfits]
    simp only [haccepts, hflags, ne_eq, not_false_eq_true, true_and]

/-- What is due is written, unless an empty name cuts it off. -/
theorem told_of_due (h : Due before e) (hdetached : ¬Detached e.logger) :
    (closed.following before).told (.entry e) 0 = e.text := by
  obtain ⟨verbose, hlast, hbelongs, hlevel⟩ := h
  have hfits := fits_following before
  have hflags : setUps before ≠ [] := by
    intro hnil
    rw [hnil] at hlast
    cases hlast
  rw [← (hfits.hear e.logger).rootThreshold_eq hlast] at hlevel
  rw [told_entry hfits]
  exact if_pos ⟨(hfits.hear e.logger).accepts hbelongs hdetached hlevel, hflags, rfl⟩

end Due

/-! ## 6. Entries that are cut off -/

theorem known_after (j : Journal) (e : Entry) :
    (j.after (.entry e)).1.known = e.logger :: j.known := by
  unfold after emit
  dsimp only
  split <;> rfl

theorem mem_known_following {name : String} {events : List Event} {j : Journal} :
    name ∈ (j.following events).known ↔
      name ∈ j.known ∨ ∃ e, .entry e ∈ events ∧ e.logger = name := by
  induction events generalizing j with
  | nil => simp [following]
  | cons event events ih =>
    have hstep : (j.following (event :: events)) = (j.after event).1.following events := rfl
    rw [hstep, ih]
    cases event with
    | setUp verbose => simp [after, setUp]
    | entry e => simp [known_after, or_left_comm, or_assoc, eq_comm]

/-- An entry for each place on the way up to the empty name. -/
def entriesAbove (path : List Char) : List Event :=
  path.tails.map fun above => .entry ⟨⟨0, detachedPlace above, ""⟩, "", 0⟩

theorem setUps_entriesAbove (path : List Char) : setUps (entriesAbove path) = [] := by
  unfold entriesAbove
  induction path.tails with
  | nil => rfl
  | cons above others ih => exact ih

theorem mem_known_entriesAbove {verbose : Bool} {path : List Char} {name : String} :
    name ∈ (closed.following (.setUp verbose :: entriesAbove path)).known ↔
      ∃ above, above <:+ path ∧ detachedPlace above = name := by
  rw [mem_known_following]
  simp only [closed, List.not_mem_nil, false_or, entriesAbove, List.mem_cons, reduceCtorEq,
    List.mem_map, List.mem_tails]
  constructor
  · rintro ⟨e, ⟨above, habove, heq⟩, rfl⟩
    cases heq
    exact ⟨above, habove, rfl⟩
  · rintro ⟨above, habove, rfl⟩
    exact ⟨_, ⟨above, habove, rfl⟩, rfl⟩

/-- **Every logger below the empty name** can be cut off, at any level. -/
theorem exists_due_not_told {e : Entry} (hdetached : Detached e.logger) {verbose : Bool}
    (hlevel : thresholdFor verbose ≤ e.level) :
    ∃ before, Due before e ∧ ∀ n, (closed.following before).told (.entry e) n = "" := by
  obtain ⟨path, hplace⟩ := hdetached.exists_place
  obtain ⟨name, hname⟩ := hdetached
  refine ⟨.setUp verbose :: entriesAbove path, ?_, fun n => ?_⟩
  · refine ⟨verbose, ?_, .inr ⟨_, hname⟩, hlevel⟩
    rw [setUps, setUps_entriesAbove]
    rfl
  · let known := e.logger :: (closed.following (.setUp verbose :: entriesAbove path)).known
    have habove : ∀ above, above <:+ path → detachedPlace above ∈ known := by
      intro above h
      exact List.mem_cons_of_mem _ (mem_known_entriesAbove.mpr ⟨above, h, rfl⟩)
    have hempty : loggerNamed "" ∉ known := by
      intro h
      rcases List.mem_cons.mp h with h | h
      · exact detachedPlace_ne (by decide) path (hplace.symm.trans h.symm)
      · obtain ⟨above, -, h⟩ := mem_known_entriesAbove.mp h
        exact detachedPlace_ne (by decide) above h
    have hstrange : isOwnLogger known e.logger = false := by
      rw [hplace]
      exact isOwnLogger_detachedPlace hempty habove
    rw [told_entry (fits_following _)]
    refine if_neg fun hcond => ?_
    have haccepts := hcond.1
    rw [accepts, Bool.and_eq_true] at haccepts
    exact Bool.false_ne_true (hstrange.symm.trans haccepts.2)

/-! ## 7. The course of events -/

theorem text_ne_empty (e : Entry) : e.text ≠ "" := by
  unfold Entry.text
  cases e.layout <;> simp [Layout.text]

theorem text_of_lt_warning {e : Entry} (h : e.level < Level.warning) :
    e.text = "[" ++ Level.name e.level ++ "] " ++ e.logger ++ " - " ++ e.message ++ "\n" := by
  rw [Entry.text, Entry.layout, if_neg (Int.not_le.mpr h)]
  rfl

theorem text_of_warning_le {e : Entry} (h : Level.warning ≤ e.level) :
    e.text = "[" ++ Level.name e.level ++ "] " ++ e.logger ++ " [" ++ e.place ++ ":"
      ++ toString e.line ++ "] - " ++ e.message ++ "\n" := by
  rw [Entry.text, Entry.layout, if_pos h]
  rfl

/-- **What a journal writes, and where.**  Some events have happened to a closed journal, and others
are to come.  As many streams have been offered as there were set-ups.

A set-up writes nothing.  An entry is written only if there was a set-up, its logger has the name of
the root or one that begins with it and a dot, and its level reaches the threshold of the last
set-up.  It is then written to the stream of the first set-up, once, and to no other.  Its text
depends on nothing but itself: below a warning there is the level and the logger before the message,
and from a warning on also the place that it comes from.

An entry that satisfies the condition is written, unless there is an empty name right below the root
in the name of its logger.  With such a name one cannot be sure of it: there is always a course of
events after which it is not written. -/
theorem course_written_once (before later : List Event) :
    (closed.following before).streams = (setUps before).length ∧
    (∀ verbose n, addition (before ++ .setUp verbose :: later) before.length n = "") ∧
    ∀ e : Entry,
      let added := addition (before ++ .entry e :: later) before.length
      ((∃ n, added n ≠ "") → Due before e ∧ ∀ n, added n = if n = 0 then e.text else "") ∧
      (Due before e → ¬Detached e.logger → ∃ n, added n ≠ "") ∧
      (e.level < Level.warning →
        e.text = "[" ++ Level.name e.level ++ "] " ++ e.logger ++ " - " ++ e.message ++ "\n") ∧
      (Level.warning ≤ e.level →
        e.text = "[" ++ Level.name e.level ++ "] " ++ e.logger ++ " [" ++ e.place ++ ":"
          ++ toString e.line ++ "] - " ++ e.message ++ "\n") ∧
      (Detached e.logger → ∀ verbose, thresholdFor verbose ≤ e.level → ∃ other, Due other e ∧
        ∀ rest n, addition (other ++ .entry e :: rest) other.length n = "") := by
  refine ⟨(fits_following before).streams, fun verbose n => ?_, fun e => ?_⟩
  · rw [addition_append]
    exact told_setUp _ verbose n
  · intro added
    have hadded : added = (closed.following before).told (.entry e) :=
      funext (addition_append before (.entry e) later)
    refine ⟨?_, fun hdue hdetached => ⟨0, ?_⟩, text_of_lt_warning, text_of_warning_le,
      fun hdetached verbose hlevel => ?_⟩
    · rintro ⟨n, hn⟩
      rw [hadded] at hn ⊢
      exact due_of_told hn
    · rw [hadded, told_of_due hdue hdetached]
      exact text_ne_empty e
    · obtain ⟨other, hdue, htold⟩ := exists_due_not_told hdetached hlevel
      refine ⟨other, hdue, fun rest n => ?_⟩
      rw [addition_append]
      exact htold n

/-- The last of two set-ups lets a low level through. -/
theorem course_written_once_debug :
    let before := [.setUp false, .setUp true]
    let e : Entry := ⟨⟨10, loggerNamed "cli", "m"⟩, "cli", 1⟩
    Due before e ∧ ¬Detached e.logger ∧
      ∃ n, addition (before ++ [.entry e]) before.length n ≠ "" := by
  intro before e
  have hdue : Due before e := ⟨true, rfl, .inr ⟨"cli", rfl⟩, by decide⟩
  have hdetached : ¬Detached e.logger := by
    rintro ⟨name, hname⟩
    have htext := congrArg String.toList hname
    simp [e, loggerNamed] at htext
  obtain ⟨-, -, hentry⟩ := course_written_once before []
  exact ⟨hdue, hdetached, (hentry e).2.1 hdue hdetached⟩

/-- An entry that satisfies the condition and is not written, since there is an empty name right
below the root. -/
theorem due_not_written_below_empty_name :
    let before := [.setUp false]
    let e : Entry := ⟨⟨30, "diceroll..x", "m"⟩, "mod", 1⟩
    ¬((∃ n, addition (before ++ [.entry e]) before.length n ≠ "") ↔ Due before e) := by
  intro before e h
  have hdue : Due before e := ⟨false, rfl, .inr ⟨".x", rfl⟩, by decide⟩
  obtain ⟨n, hn⟩ := h.mpr hdue
  refine hn ?_
  have hnothing : ((closed.following before).after (.entry e)).2 = List.replicate 1 "" := by
    decide
  rw [addition_append, told, hnothing]
  exact getD_replicate 1 n

end Journal
end Dice
