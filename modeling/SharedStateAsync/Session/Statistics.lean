/-
What the statistics file holds (`src/sharedstate.cc`, `collectStat`).

Every call reads the file, adds one record, prunes the lists of all peers and writes the
file. Each list is pruned when other peers are recorded as well, against the clock of that
call, and loses from its front only. As the clock never goes back, what is lost is not
among the last ten any more, or has been too old ever since.

* `statsAfter`: what a history of calls leads to;
* `statsAfter_recent`: for each peer the recent ones of its records;
* `StatFileKept`: the file is what this process wrote last, and the clock goes forward;
* `collectStat_file`: one call;
* `statistics_recent`: any number of calls.
-/
import SharedStateAsync.Lib.Window
import SharedStateAsync.Session.Handlers

namespace SharedStateAsync

open Coro Window

/-! ### Pruning -/

/-- The difference that wraps is none of the records below the bound, and exact from it on. -/
lemma mSkip_eq {size : ℕ} (h : size < 2 ^ 31) :
    mSkip size = size - SHARED_STATE_NET_STAT_MAX_RECORDS := by
  rw [mSkip, SHARED_STATE_NET_STAT_MAX_RECORDS]
  simp only [Int.bmod]
  omega

/-- The age of a record is at most the maximum. -/
def isFresh (tNow : ℤ) (stat : NetworkStats) : Bool :=
  decide (tNow - stat.mTS ≤ SHARED_STATE_NET_STAT_MAX_AGE)

lemma pruneStats_eq (tNow : ℤ) {peerStats : List NetworkStats} (h : peerStats.length < 2 ^ 31) :
    pruneStats tNow peerStats
      = prune SHARED_STATE_NET_STAT_MAX_RECORDS (isFresh tNow) peerStats := by
  have hold : (fun stat : NetworkStats => decide (tNow - stat.mTS > SHARED_STATE_NET_STAT_MAX_AGE))
      = fun stat => !isFresh tNow stat := by
    funext stat
    rw [isFresh, ← decide_not]
    exact decide_eq_decide.mpr not_le.symm
  rw [pruneStats, mSkip_eq h, prune, hold]

/-! ### Histories -/

/-- A record as it is written: the peer is the key it is stored under. -/
def NetworkStats.stored (stat : NetworkStats) : NetworkStats := { stat with mPeer := [] }

/-- Statistics as they are read back. -/
def storedStats (stats : OrdMap StdString (List NetworkStats)) :
    OrdMap StdString (List NetworkStats) :=
  stats.map fun _ peerStats => peerStats.map NetworkStats.stored

/-- One more record, and the prune of all lists. -/
def pushStat (stats : OrdMap StdString (List NetworkStats)) (tPeerStr : StdString)
    (netStat : NetworkStats) : OrdMap StdString (List NetworkStats) :=
  (stats.insert tPeerStr (stats[tPeerStr]?.getD [] ++ [netStat])).map
    fun _ peerStats => pruneStats netStat.mTS peerStats

/-- The statistics the last call of a history writes. The calls before it have left what
they wrote in the file. -/
def statsAfter (history : List (StdString × NetworkStats)) : OrdMap StdString (List NetworkStats) :=
  history.foldl (fun stats call => pushStat (storedStats stats) call.1 call.2) ∅

/-- The records of a peer. -/
def recordsOf (peer : StdString) (history : List (StdString × NetworkStats)) : List NetworkStats :=
  (history.filter fun call => call.1 = peer).map fun call => call.2.stored

section Histories

variable {history : List (StdString × NetworkStats)} {peer : StdString}

lemma statsAfter_concat (history : List (StdString × NetworkStats))
    (call : StdString × NetworkStats) :
    statsAfter (history ++ [call]) = pushStat (storedStats (statsAfter history)) call.1 call.2 := by
  rw [statsAfter, List.foldl_concat, statsAfter]

lemma recordsOf_concat (peer : StdString) (history : List (StdString × NetworkStats))
    (call : StdString × NetworkStats) :
    recordsOf peer (history ++ [call])
      = recordsOf peer history ++ if call.1 = peer then [call.2.stored] else [] := by
  rw [recordsOf, List.filter_append, List.map_append, recordsOf]
  by_cases hpeer : call.1 = peer
  · simp [hpeer]
  · simp [hpeer]

/-- What is read back of one peer's list, after one more record. -/
lemma pushStat_getD (stats : OrdMap StdString (List NetworkStats)) (tPeerStr peer : StdString)
    (netStat : NetworkStats) :
    (pushStat stats tPeerStr netStat)[peer]?.getD []
      = pruneStats netStat.mTS
          (stats[peer]?.getD [] ++ if tPeerStr = peer then [netStat] else []) := by
  rw [pushStat, Std.ExtTreeMap.getElem?_map, OrdMap.getElem?_insert_eq]
  by_cases hpeer : tPeerStr = peer
  · rw [if_pos hpeer, if_pos hpeer, hpeer]
    rfl
  · rw [if_neg hpeer, if_neg hpeer, List.append_nil]
    cases stats[peer]? with
    | none => rfl
    | some peerStats => rfl

lemma storedStats_getD (stats : OrdMap StdString (List NetworkStats)) (peer : StdString) :
    (storedStats stats)[peer]?.getD [] = (stats[peer]?.getD []).map NetworkStats.stored := by
  rw [storedStats, Std.ExtTreeMap.getElem?_map]
  cases stats[peer]? with
  | none => rfl
  | some peerStats => rfl

lemma mem_recordsOf {stat : NetworkStats} (h : stat ∈ recordsOf peer history) :
    ∃ call ∈ history, stat = call.2.stored := by
  obtain ⟨call, hcall, rfl⟩ := List.mem_map.mp h
  exact ⟨call, (List.mem_filter.mp hcall).1, rfl⟩

/-- Records of the past are read as they were written. -/
lemma map_stored_eq_self {stats : List NetworkStats}
    (h : ∀ stat ∈ stats, ∃ call ∈ history, stat = call.2.stored) :
    stats.map NetworkStats.stored = stats := by
  refine List.map_congr_left (fun stat hstat => ?_) |>.trans stats.map_id
  obtain ⟨call, -, rfl⟩ := h stat hstat
  rfl

/-- The prune looks at times only. -/
lemma map_prune_stored (n : ℕ) (tNow : ℤ) (stats : List NetworkStats) :
    (prune n (isFresh tNow) stats).map NetworkStats.stored
      = prune n (isFresh tNow) (stats.map NetworkStats.stored) := by
  rw [prune_map]
  rfl

/-- The calls are in the order of their times. -/
def InOrder (history : List (StdString × NetworkStats)) : Prop :=
  (history.map fun call => call.2.mTS).Pairwise (· ≤ ·)

lemma rises_recordsOf (horder : InOrder history) (tNow : ℤ) (peer : StdString) :
    Rises (isFresh tNow) (recordsOf peer history) := by
  have hsorted : (recordsOf peer history).Pairwise fun a b => a.mTS ≤ b.mTS := by
    rw [recordsOf, List.pairwise_map]
    exact (List.pairwise_map.mp horder).sublist List.filter_sublist
  refine hsorted.imp fun {a b} hle hfresh => ?_
  rw [isFresh, decide_eq_true_iff] at hfresh ⊢
  omega

/-- **What a history leaves of a peer**: the records among its last ten whose age at the time
of the last call is at most the maximum. -/
theorem statsAfter_recent (horder : InOrder history) {tNow : ℤ}
    (hlast : ∀ call, history.getLast? = some call → call.2.mTS = tNow) (peer : StdString) :
    (storedStats (statsAfter history))[peer]?.getD []
      = recent SHARED_STATE_NET_STAT_MAX_RECORDS (isFresh tNow) (recordsOf peer history) := by
  induction history using List.reverseRecOn generalizing tNow with
  | nil => rw [storedStats_getD]; simp [statsAfter, recordsOf, recent]
  | append_singleton history call ih =>
      have hcall : call.2.mTS = tNow := hlast call (by simp)
      have horder' := horder
      rw [InOrder, List.map_append, List.pairwise_append] at horder
      obtain ⟨hbefore, -, hle⟩ := horder
      -- the call before, whose clock was not later
      obtain ⟨tBefore, hlastBefore, hleBefore⟩ : ∃ tBefore,
          (∀ c, history.getLast? = some c → c.2.mTS = tBefore) ∧ tBefore ≤ tNow := by
        cases hlast' : history.getLast? with
        | none => exact ⟨tNow, fun c hc => absurd hc (by simp), le_rfl⟩
        | some c =>
            refine ⟨c.2.mTS, fun c' hc' => by rw [Option.some.inj hc'], ?_⟩
            rw [← hcall]
            exact hle _ (List.mem_map_of_mem (List.mem_of_getLast? hlast')) _ (by simp)
      have hmono : ∀ stat, isFresh tNow stat = true → isFresh tBefore stat = true := by
        intro stat hfresh
        rw [isFresh, decide_eq_true_iff] at hfresh ⊢
        omega
      have hrises := rises_recordsOf horder' tNow peer
      rw [recordsOf_concat] at hrises ⊢
      rw [statsAfter_concat, storedStats_getD, pushStat_getD, hcall, ih hbefore hlastBefore]
      have hlength := length_recent_le SHARED_STATE_NET_STAT_MAX_RECORDS (isFresh tBefore)
        (recordsOf peer history)
      rw [pruneStats_eq, map_prune_stored, List.map_append,
        map_stored_eq_self fun stat hstat => mem_recordsOf (mem_of_mem_recent hstat),
        ← prune_recent_append hmono (rises_recordsOf hbefore tBefore peer) hrises]
      · split_ifs <;> rfl
      · rw [List.length_append]
        have hten : SHARED_STATE_NET_STAT_MAX_RECORDS = 10 := rfl
        split_ifs
        · rw [List.length_singleton]
          omega
        · rw [List.length_nil]
          omega

end Histories

/-! ### The file -/

variable {D : Type}

/-- What a step does to the content of the statistics file. -/
def statFileStep (content : Option StdString) : Step D → Option StdString
  | .called _ (.writeFile path text) opened =>
      if path = SHARED_STATE_NET_STAT_FILE_PATH ∧ opened = true then some text else content
  | .called _ (.openFile path) (.ok _) =>
      if path = SHARED_STATE_NET_STAT_FILE_PATH then some (content.getD []) else content
  | _ => content

/-- The content of the statistics file after a run that found none. -/
def statFile (t : Trace D) : Option StdString := t.foldl statFileStep none

/-- What the clock has shown. -/
def clocks (t : Trace D) : List ℤ :=
  t.filterMap fun i => match i with
    | .called _ .steadyClock tNow => some tNow
    | _ => none

/-- The file can be opened, locked, read and written, nobody else writes it, and the clock
does not go back. -/
def StatFileKept : Rely SysCall Ans (Process D) Mark
  | t, .called _ (.readFile path) text => path = SHARED_STATE_NET_STAT_FILE_PATH → text = statFile t
  | _, .called _ (.writeFile _ _) opened => opened = true
  | _, .called _ (.openFile _) r => r.isOk = true
  | _, .called _ (.flock _ true) r => r.isOk = true
  | t, .called _ .steadyClock tNow => ∀ before ∈ clocks t, before ≤ tNow
  | _, _ => True

/-- The statistics are read as they were written, but for the peers in the records. -/
def Platform.RoundTrips (P : Platform D) (stats : OrdMap StdString (List NetworkStats)) : Prop :=
  ∃ text, P.printStats stats = some text ∧ P.loadStats (text ++ [10]) = storedStats stats

/-- The entry a call of `collectStat` makes at the given time. -/
def Platform.statRecord (P : Platform D) (netStat : NetworkStats) (tNow : ℤ) :
    StdString × NetworkStats :=
  let mPeer := (P.addrCheck.ipv4ToIpv6 netStat.mPeer).getD netStat.mPeer
  (P.ipToString mPeer, { netStat with mPeer := mPeer, mTS := tNow })

/-- What is read from the file. -/
def Platform.statsIn (P : Platform D) (file : Option StdString) :
    OrdMap StdString (List NetworkStats) :=
  file.elim ∅ P.loadStats

/-- Everything the calls of a history have written is read as it was written. -/
def Platform.RoundTripsAll (P : Platform D) (history : List (StdString × NetworkStats)) : Prop :=
  ∀ pre, pre <+: history → pre ≠ [] → P.RoundTrips (statsAfter pre)

/-- The file holds what the history has led to, after the clock has shown `times`. -/
structure StatsFile (P : Platform D) (history : List (StdString × NetworkStats)) (times : List ℤ)
    (t : Trace D) : Prop where
  clocks_eq : clocks t = times
  loaded : P.RoundTripsAll history → P.statsIn (statFile t) = storedStats (statsAfter history)

section File

variable {P : Platform D} {history : List (StdString × NetworkStats)} {times : List ℤ}
  {m : Process D} {t : Trace D} {errbub : ErrBub}

lemma statFile_concat (t : Trace D) (i : Step D) :
    statFile (t ++ [i]) = statFileStep (statFile t) i := by
  rw [statFile, List.foldl_concat, statFile]

lemma clocks_concat (t : Trace D) (i : Step D) : clocks (t ++ [i]) = clocks t ++ clocks [i] :=
  List.filterMap_append

/-- A step that is no clock reading and leaves the content. -/
lemma StatsFile.concat (h : StatsFile P history times t) {i : Step D} (hclock : clocks [i] = [])
    (hfile : P.statsIn (statFileStep (statFile t) i) = P.statsIn (statFile t)) :
    StatsFile P history times (t ++ [i]) where
  clocks_eq := by rw [clocks_concat, hclock, List.append_nil, h.clocks_eq]
  loaded := by
    rw [statFile_concat, hfile]
    exact h.loaded

/-- An error that is reported leaves the file. -/
lemma wp_bubble_file (c : ErrorCondition) (errbub : ErrBub) (h : StatsFile P history times t) :
    wp StatFileKept AnyExit (rs_error_bubble_or_exit c errbub)
      (fun _ _ t' => StatsFile P history times t') m t := by
  cases errbub with
  | null => trivial
  | storage => exact h.concat rfl rfl

/-- What `updateStats` writes. -/
def Platform.statsText (P : Platform D) (stats : OrdMap StdString (List NetworkStats)) :
    StdString :=
  (P.printStats stats).elim [] (· ++ [10])

lemma updateStats_eq (P : Platform D) (tPeerStr : StdString) (netStat : NetworkStats)
    (errbub : ErrBub) :
    updateStats P tPeerStr netStat errbub = (do
      let text ← sysCall (.readFile SHARED_STATE_NET_STAT_FILE_PATH)
      let isOpen ← sysCall (.writeFile SHARED_STATE_NET_STAT_FILE_PATH
        (P.statsText (pushStat (P.statsIn text) tPeerStr netStat)))
      if isOpen then return ()
      rs_error_bubble_or_exit .ioError errbub) := by
  rw [updateStats]
  refine congrArg _ (funext fun text => ?_)
  cases text with
  | none => rfl
  | some text => rfl

/-- **One more record** in the file. -/
lemma updateStats_file (tPeerStr : StdString) (netStat : NetworkStats)
    (h : StatsFile P history times t) :
    wp StatFileKept AnyExit (updateStats P tPeerStr netStat errbub)
      (fun _ _ t' => StatsFile P (history ++ [(tPeerStr, netStat)]) times t') m t := by
  rw [updateStats_eq, wp_bind, wp_call]
  intro text htext
  have hread : text = statFile t := htext rfl
  have h₁ : StatsFile P history times
      (t ++ [.called m (.readFile SHARED_STATE_NET_STAT_FILE_PATH) text]) := h.concat rfl rfl
  rw [wp_bind, wp_call]
  intro isOpen hisOpen
  have hopened : isOpen = true := hisOpen
  rw [if_pos hopened, wp_pure]
  refine ⟨by rw [clocks_concat, h₁.clocks_eq]; exact List.append_nil _, fun hround => ?_⟩
  -- what was read is what the history before has left
  have hstats : P.statsIn text = storedStats (statsAfter history) := by
    rw [hread]
    exact h.loaded fun pre hpre => hround pre (hpre.trans (List.prefix_append _ _))
  obtain ⟨written, hprint, hload⟩ := hround _ List.prefix_rfl (by simp)
  rw [statFile_concat, statFileStep, if_pos ⟨rfl, hopened⟩, hstats]
  rw [statsAfter_concat] at hprint hload ⊢
  rw [Platform.statsIn, Option.elim_some, Platform.statsText, hprint]
  exact hload

/-- A call that failed and is reported. -/
lemma wp_reported_file (e : Errno) (errbub : ErrBub) (h : StatsFile P history times t) :
    wp StatFileKept AnyExit (do
      rs_error_bubble_or_exit (.errno e) errbub
      pure false : Io D Bool) (fun _ _ t' => StatsFile P history times t') m t := by
  rw [wp_bind]
  exact wp_mono (wp_bubble_file _ _ h) fun _ _ _ h' => h'

/-- After the update the lock is released and the descriptor closed, if they can be. -/
lemma wp_unlock_file (openRet : ℤ) (errbub : ErrBub) (h : StatsFile P history times t) :
    wp StatFileKept AnyExit (do
      match ← sysCall (.flock openRet false) with
      | .error e =>
          rs_error_bubble_or_exit (.errno e) errbub
          return false
      | .ok _ =>
          match ← sysCall (.close openRet) with
          | .error e =>
              rs_error_bubble_or_exit (.errno e) errbub
              return false
          | .ok _ => return true) (fun _ _ t' => StatsFile P history times t') m t := by
  rw [wp_bind, wp_call]
  intro unlocked _
  have h₁ : StatsFile P history times (t ++ [.called m (.flock openRet false) unlocked]) :=
    h.concat rfl rfl
  cases unlocked with
  | error e => exact wp_reported_file e errbub h₁
  | ok _ =>
      simp only
      rw [wp_bind, wp_call]
      intro closed _
      have h₂ := h₁.concat (i := .called m (.close openRet) closed) rfl rfl
      cases closed with
      | error e => exact wp_reported_file e errbub h₂
      | ok _ => exact h₂

/-- **One call** of `collectStat`. -/
theorem collectStat_file (hempty : P.loadStats [] = ∅) (netStat : NetworkStats)
    (horder : times.Pairwise (· ≤ ·)) (h : StatsFile P history times t) :
    wp StatFileKept AnyExit (collectStat P netStat errbub)
      (fun _ _ t' => ∃ tNow, (times ++ [tNow]).Pairwise (· ≤ ·) ∧
        StatsFile P (history ++ [P.statRecord netStat tNow]) (times ++ [tNow]) t') m t := by
  rw [collectStat]
  simp only
  rw [wp_bind, wp_call]
  intro tNow htNow
  have hbefore : ∀ before ∈ clocks t, before ≤ tNow := htNow
  have horder' : (times ++ [tNow]).Pairwise (· ≤ ·) := by
    rw [List.pairwise_append]
    refine ⟨horder, List.pairwise_singleton _ _, fun before hmem now hnow => ?_⟩
    rw [List.mem_singleton.mp hnow]
    exact hbefore before (h.clocks_eq ▸ hmem)
  have h₁ : StatsFile P history (times ++ [tNow]) (t ++ [.called m .steadyClock tNow]) := by
    refine ⟨by rw [clocks_concat, h.clocks_eq]; rfl, ?_⟩
    rw [statFile_concat]
    exact h.loaded
  split_ifs with hlocking
  · -- without a lock
    rw [wp_bind]
    exact wp_mono (updateStats_file _ _ h₁) fun _ _ t' h' => ⟨tNow, horder', h'⟩
  · rw [wp_bind, wp_call]
    intro openRet hopen
    have hisOk : openRet.isOk = true := hopen
    cases openRet with
    | error e => cases hisOk
    | ok fd =>
        -- opening makes an empty file where there is none, which holds no statistics
        have h₂ : StatsFile P history (times ++ [tNow]) (t ++ [.called m .steadyClock tNow] ++
            [.called m (.openFile SHARED_STATE_NET_STAT_FILE_PATH) (.ok fd)]) := by
          refine h₁.concat rfl ?_
          rw [statFileStep, if_pos rfl]
          cases statFile (t ++ [.called m .steadyClock tNow]) with
          | none => exact hempty
          | some text => rfl
        simp only
        rw [wp_bind, wp_call]
        intro locked hlocked
        have hisLocked : locked.isOk = true := hlocked
        cases locked with
        | error e => cases hisLocked
        | ok _ =>
            simp only
            rw [wp_bind]
            have h₃ := h₂.concat (i := .called m (.flock fd true) (.ok ())) rfl rfl
            refine wp_mono (updateStats_file _ _ h₃) fun _ m' t' h' => ?_
            exact wp_mono (wp_unlock_file fd errbub h') fun _ _ t'' h'' => ⟨tNow, horder', h''⟩

end File

/-! ### Any number of calls -/

/-- Calls of `collectStat`, one after the other. -/
def collectStats (P : Platform D) (errbub : ErrBub) : List NetworkStats → Io D Unit
  | [] => pure ()
  | netStat :: netStats => do
      let _ ← collectStat P netStat errbub
      collectStats P errbub netStats

/-- The history of some calls at some times. -/
def Platform.historyOf (P : Platform D) (netStats : List NetworkStats) (times : List ℤ) :
    List (StdString × NetworkStats) :=
  List.zipWith P.statRecord netStats times

/-- Each call is recorded with its time. -/
lemma Platform.map_mTS_historyOf (P : Platform D) {netStats : List NetworkStats} {times : List ℤ}
    (h : times.length = netStats.length) :
    ((P.historyOf netStats times).map fun call => call.2.mTS) = times := by
  rw [historyOf, List.map_zipWith]
  induction netStats generalizing times with
  | nil => rw [List.zipWith_nil_left, List.length_eq_zero_iff.mp h]
  | cons netStat netStats ih =>
      cases times with
      | nil => cases h
      | cons tNow times => rw [List.zipWith_cons_cons, ih (Nat.succ.inj h)]; rfl

section Calls

variable {P : Platform D} {history : List (StdString × NetworkStats)} {times : List ℤ}
  {m : Process D} {t : Trace D} {errbub : ErrBub}

/-- **Calls of `collectStat`**, by induction on their number. -/
theorem collectStats_file (hempty : P.loadStats [] = ∅) (netStats : List NetworkStats)
    (horder : times.Pairwise (· ≤ ·)) (h : StatsFile P history times t) :
    wp StatFileKept AnyExit (collectStats P errbub netStats)
      (fun _ _ t' => ∃ later, later.length = netStats.length ∧
        (times ++ later).Pairwise (· ≤ ·) ∧
        StatsFile P (history ++ P.historyOf netStats later) (times ++ later) t') m t := by
  induction netStats generalizing history times m t with
  | nil =>
      refine ⟨[], rfl, ?_, ?_⟩
      · rw [List.append_nil]
        exact horder
      · rw [List.append_nil, Platform.historyOf, List.zipWith_nil_left, List.append_nil]
        exact h
  | cons netStat netStats ih =>
      rw [collectStats, wp_bind]
      refine wp_mono (collectStat_file hempty netStat horder h) ?_
      rintro _ m' t' ⟨tNow, horder', h'⟩
      refine wp_mono (ih horder' h') ?_
      rintro _ m'' t'' ⟨later, hlength, horder'', h''⟩
      rw [List.append_assoc] at horder'' h''
      rw [List.append_assoc] at h''
      exact ⟨tNow :: later, congrArg _ hlength, horder'', h''⟩

end Calls

/-- **The statistics file holds the recent history.** A process that starts without the file
and makes any calls of `collectStat`, whatever their peers, with a clock that does not go
back, leaves for each peer the list of those of its records that are among its last ten and
no older than the maximum at the time of the last call, in the order of the calls. -/
theorem statistics_recent {σ : Type} (P : Platform D) (hempty : P.loadStats [] = ∅)
    (env : Env SysCall Ans (Process D) σ) (start : σ) (m : Process D) (errbub : ErrBub)
    (netStats : List NetworkStats) :
    let run := (collectStats P errbub netStats).exec env ⟨start, m, []⟩
    let history := P.historyOf netStats (clocks run.2.trace)
    Meets StatFileKept [] run.2.trace → run.1 ≠ none → P.RoundTripsAll history →
      (clocks run.2.trace).length = netStats.length ∧
        ∀ tNow, (clocks run.2.trace).getLast? = some tNow → ∀ peer : StdString,
          (P.statsIn (statFile run.2.trace))[peer]?.getD []
            = recent SHARED_STATE_NET_STAT_MAX_RECORDS (isFresh tNow) (recordsOf peer history) := by
  intro run history hmeets hreturns hround
  have hstart : StatsFile P [] [] ([] : Trace D) := by
    refine ⟨rfl, fun _ => ?_⟩
    refine Std.ExtTreeMap.ext_getElem? fun peer => ?_
    rw [storedStats, Std.ExtTreeMap.getElem?_map]
    simp [Platform.statsIn, statFile, statsAfter]
  obtain ⟨-, -, times, hlength, horder, hfile⟩ := exec_returns
    (collectStats_file hempty netStats List.Pairwise.nil hstart) hmeets hreturns
  rw [List.nil_append] at horder hfile
  rw [List.nil_append] at hfile
  have htimes : clocks run.2.trace = times := hfile.clocks_eq
  have hhistory : history = P.historyOf netStats times := by rw [← htimes]
  have hmTS := P.map_mTS_historyOf hlength
  rw [← hhistory] at hfile hmTS
  refine ⟨by rw [htimes, hlength], fun tNow hlast peer => ?_⟩
  rw [hfile.loaded hround]
  refine statsAfter_recent (by rw [InOrder, hmTS]; exact horder) (fun call hcall => ?_) peer
  rw [htimes, ← hmTS, List.getLast?_map, hcall] at hlast
  exact Option.some.inj hlast

/-! ### Two calls, half an hour apart -/

/-- The document with one record of the peer `p`, made at the given time. -/
def oneRecordDocument (mTS : String) : StdString :=
  bytes "\x7b\"stats\":[\x7b\"key\":\"p\",\"value\":[\x7b\"mTS\":\x7b\"xint64\":" ++ bytes mTS ++
  bytes ",\"xstr64\":\"" ++ bytes mTS ++ bytes "\"\x7d,\"mRttExt\":\x7b\"xint64\":7," ++
  bytes "\"xstr64\":\"7\"\x7d,\"mUpBwMbsExt\":1,\"mDownBwMbsExt\":1\x7d]\x7d]\x7d"

/-- The record, as a session makes it. -/
def sampleStat : NetworkStats := ⟨[10], 0, 7, 1, 1⟩

/-- The statistics with that record only. -/
def oneRecord (mTS : ℤ) : OrdMap StdString (List NetworkStats) :=
  (∅ : OrdMap StdString (List NetworkStats)).insert (bytes "p") [⟨[], mTS, 7, 1, 1⟩]

/-- A platform that knows the two documents the calls write. -/
def statPlatform : Platform ℕ :=
  { samplePlatform (bytes "a") with
    ipToString := fun _ => bytes "p"
    loadStats := fun text =>
      if text = oneRecordDocument "5" ++ [10] then oneRecord 5
      else if text = oneRecordDocument "1860000000005" ++ [10] then oneRecord 1860000000005
      else ∅
    printStats := fun stats =>
      if (stats[bytes "p"]?.getD []).map NetworkStats.mTS = [5] then some (oneRecordDocument "5")
      else some (oneRecordDocument "1860000000005") }

/-- A file system with the statistics file, and a clock that shows 31 minutes more each time. -/
def statEnv : Env SysCall Ans (Process ℕ) (Option StdString × ℤ) where
  answer := fun s _ c =>
    match c with
    | .steadyClock => (s.2, s.1, s.2 + 31 * 60 * 10 ^ 9)
    | .readFile _ => (s.1, s)
    | .writeFile path text =>
        (true, if path = SHARED_STATE_NET_STAT_FILE_PATH then some text else s.1, s.2)
    | .openFile path =>
        (.ok 0, if path = SHARED_STATE_NET_STAT_FILE_PATH then some (s.1.getD []) else s.1, s.2)
    | c => (quietAnswer c, s)
  others := fun s m => (m, s)

/-- The run of the two calls. -/
abbrev statRun : Option Unit × World SysCall Ans (Process ℕ) Mark (Option StdString × ℤ) :=
  (collectStats statPlatform .storage [sampleStat, sampleStat]).exec statEnv
    ⟨(none, 5), sampleProcess ∅, []⟩

/-- The environment has what was written, and its clock is ahead of what it has shown. -/
def StatEnvOk (w : World SysCall Ans (Process ℕ) Mark (Option StdString × ℤ)) : Prop :=
  w.env.1 = statFile w.trace ∧ ∀ before ∈ clocks w.trace, before ≤ w.env.2

/-- A step that has to do with neither. -/
lemma StatEnvOk.concat {w : World SysCall Ans (Process ℕ) Mark (Option StdString × ℤ)}
    (h : StatEnvOk w) {i : Step ℕ} (hclock : clocks [i] = [])
    (hfile : statFileStep (statFile w.trace) i = statFile w.trace) :
    StatEnvOk { w with trace := w.trace ++ [i] } := by
  refine ⟨?_, ?_⟩
  · rw [statFile_concat, hfile]
    exact h.1
  · rw [clocks_concat, hclock, List.append_nil]
    exact h.2

/-- A step that changes the file, as the environment does. -/
lemma StatEnvOk.file {w : World SysCall Ans (Process ℕ) Mark (Option StdString × ℤ)}
    (h : StatEnvOk w) {i : Step ℕ} (hclock : clocks [i] = []) {file : Option StdString}
    (hfile : statFileStep w.env.1 i = file) :
    StatEnvOk { w with env := (file, w.env.2), trace := w.trace ++ [i] } := by
  refine ⟨?_, ?_⟩
  · rw [statFile_concat, ← h.1, hfile]
  · rw [clocks_concat, hclock, List.append_nil]
    exact h.2

/-- What the environment answers is as the file and the clock are. -/
lemma StatEnvOk.answered {w : World SysCall Ans (Process ℕ) Mark (Option StdString × ℤ)}
    (h : StatEnvOk w) (c : SysCall) :
    StatFileKept w.trace (.called w.mem c (statEnv.answer w.env w.mem c).1) ∧
      StatEnvOk (w.answered statEnv c) := by
  cases c with
  | steadyClock =>
      refine ⟨h.2, ?_, fun before hbefore => ?_⟩
      · rw [World.answered, statFile_concat]
        exact h.1
      · rw [World.answered, clocks_concat] at hbefore
        change before ≤ w.env.2 + 31 * 60 * 10 ^ 9
        rcases List.mem_append.mp hbefore with hold | hnew
        · have hle := h.2 before hold
          omega
        · obtain rfl : before = w.env.2 := List.mem_singleton.mp hnew
          omega
  | readFile path => exact ⟨fun _ => h.1, h.concat rfl rfl⟩
  | writeFile path text =>
      refine ⟨rfl, h.file rfl ?_⟩
      change (if path = SHARED_STATE_NET_STAT_FILE_PATH ∧ true = true then some text else w.env.1)
        = if path = SHARED_STATE_NET_STAT_FILE_PATH then some text else w.env.1
      simp only [and_true]
  | openFile path => exact ⟨rfl, h.file rfl rfl⟩
  | flock fd exclusive =>
      refine ⟨?_, h.concat rfl rfl⟩
      cases exclusive with
      | true => rfl
      | false => trivial
  | _ => exact ⟨trivial, h.concat rfl rfl⟩

lemma statRun_meets : Meets StatFileKept [] statRun.2.trace := by
  obtain ⟨items, htrace, hmeets⟩ := exec_meets (fun w c hw => StatEnvOk.answered hw c)
    (fun w hw => ⟨trivial, hw.concat rfl rfl⟩) (fun w m hw => hw)
    (fun w e hw => ⟨trivial, hw.concat rfl rfl⟩)
    (collectStats statPlatform .storage [sampleStat, sampleStat])
    (w := ⟨(none, 5), sampleProcess ∅, []⟩) ⟨rfl, by simp [clocks]⟩
  rw [List.nil_append] at htrace
  rw [statRun, htrace]
  exact hmeets

/-- Statistics of one peer only, with one more record. -/
lemma pushStat_one (peerStats : Option (List NetworkStats)) (tPeerStr : StdString)
    (netStat : NetworkStats) :
    pushStat (peerStats.elim ∅ fun l =>
        (∅ : OrdMap StdString (List NetworkStats)).insert tPeerStr l) tPeerStr netStat
      = (∅ : OrdMap StdString (List NetworkStats)).insert tPeerStr
          (pruneStats netStat.mTS (peerStats.getD [] ++ [netStat])) := by
  refine Std.ExtTreeMap.ext_getElem? fun peer => ?_
  rw [pushStat, Std.ExtTreeMap.getElem?_map, OrdMap.getElem?_insert_eq, OrdMap.getElem?_insert_eq]
  cases peerStats with
  | none =>
      by_cases hpeer : tPeerStr = peer
      · simp [hpeer]
      · simp [hpeer]
  | some l =>
      rw [Option.elim_some, OrdMap.getElem?_insert_eq, OrdMap.getElem?_insert_eq, if_pos rfl]
      by_cases hpeer : tPeerStr = peer
      · simp [hpeer]
      · simp [hpeer]

lemma storedStats_one (tPeerStr : StdString) (l : List NetworkStats) :
    storedStats ((∅ : OrdMap StdString (List NetworkStats)).insert tPeerStr l)
      = (∅ : OrdMap StdString (List NetworkStats)).insert tPeerStr
          (l.map NetworkStats.stored) := by
  refine Std.ExtTreeMap.ext_getElem? fun peer => ?_
  rw [storedStats, Std.ExtTreeMap.getElem?_map, OrdMap.getElem?_insert_eq,
    OrdMap.getElem?_insert_eq]
  by_cases hpeer : tPeerStr = peer
  · simp [hpeer]
  · simp [hpeer]

/-- The history of the two calls. -/
abbrev statHistory : List (StdString × NetworkStats) :=
  statPlatform.historyOf [sampleStat, sampleStat] [5, 1860000000005]

lemma statsAfter_first :
    statsAfter [statPlatform.statRecord sampleStat 5]
      = (∅ : OrdMap StdString (List NetworkStats)).insert (bytes "p")
          [{ sampleStat with mTS := 5 }] := by
  have hempty : storedStats ∅ = ∅ := by
    refine Std.ExtTreeMap.ext_getElem? fun peer => ?_
    rw [storedStats, Std.ExtTreeMap.getElem?_map]
    simp
  rw [statsAfter, List.foldl_cons, List.foldl_nil, hempty]
  exact (pushStat_one none _ _).trans (congrArg _ (by decide +kernel))

lemma statsAfter_second :
    statsAfter statHistory
      = (∅ : OrdMap StdString (List NetworkStats)).insert (bytes "p")
          [{ sampleStat with mTS := 1860000000005 }] := by
  have hhistory : statHistory = [statPlatform.statRecord sampleStat 5] ++
      [statPlatform.statRecord sampleStat 1860000000005] := rfl
  rw [hhistory, statsAfter_concat, statsAfter_first, storedStats_one]
  exact (pushStat_one (some _) _ _).trans (congrArg _ (by decide +kernel))

lemma statHistory_roundTrips : statPlatform.RoundTripsAll statHistory := by
  intro pre hpre hne
  have hcases : pre = [statPlatform.statRecord sampleStat 5] ∨ pre = statHistory := by
    have hhistory : statHistory = [statPlatform.statRecord sampleStat 5] ++
        [statPlatform.statRecord sampleStat 1860000000005] := rfl
    rw [hhistory, List.prefix_concat_iff] at hpre
    rcases hpre with rfl | hpre
    · exact Or.inr hhistory.symm
    · rcases List.prefix_concat_iff.mp (show pre <+: [] ++ [_] from hpre) with rfl | hnil
      · exact Or.inl rfl
      · exact absurd (List.prefix_nil.mp hnil) hne
  rcases hcases with rfl | rfl
  · rw [statsAfter_first]
    refine ⟨oneRecordDocument "5", by decide +kernel, ?_⟩
    rw [storedStats_one]
    exact if_pos rfl
  · rw [statsAfter_second]
    refine ⟨oneRecordDocument "1860000000005", by decide +kernel, ?_⟩
    have hne' : oneRecordDocument "1860000000005" ++ [10] ≠ oneRecordDocument "5" ++ [10] := by
      decide +kernel
    rw [storedStats_one]
    exact (if_neg hne').trans (if_pos rfl)

/-- The first record is too old at the second call. -/
theorem statistics_recent_halfHour :
    (statPlatform.statsIn (statFile statRun.2.trace))[bytes "p"]?.getD []
      = recent SHARED_STATE_NET_STAT_MAX_RECORDS (isFresh 1860000000005)
          (recordsOf (bytes "p") statHistory) := by
  have hclocks : clocks statRun.2.trace = [5, 1860000000005] := by decide +kernel
  have hround := statHistory_roundTrips
  rw [statHistory, ← hclocks] at hround
  have hrecent := statistics_recent statPlatform (by decide +kernel) statEnv (none, 5)
    (sampleProcess ∅) .storage [sampleStat, sampleStat] statRun_meets (by decide +kernel) hround
  rw [statHistory, ← hclocks]
  exact hrecent.2 1860000000005 (by rw [hclocks]; rfl) (bytes "p")

end SharedStateAsync
