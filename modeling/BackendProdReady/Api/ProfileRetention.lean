import BackendProdReady.Api.Profiling
import BackendProdReady.Lib.FileTrees
import BackendProdReady.Lib.Text
import Mathlib.Data.String.Basic

/-!
# How long profiles are kept

`_cleanup_old_profiles` removes the files with the extensions of profiles that are older than
the retention period, and then the directories without entries, from the innermost ones
outwards.  The first `OSError` ends it.  Its pattern selects directories as well, which
`unlink` does not remove: a profile of `/openapi.json` is in such a directory.
-/

namespace BackendProdReady.Api.ProfileRetention

open BackendProdReady.Lib.FileTrees
open BackendProdReady.Lib.FileTrees.FileTree
open BackendProdReady.Lib.Text (endsWith)
open BackendProdReady.Api.Profiling (profilePath)

/-! ## Source -/

/-- What is below `PROFILE_DIR`; nothing if that is not there.  Times are in nanoseconds. -/
abbrev Tree := FileTree String

/-- `fnmatch` of the last component and `*` with an extension. -/
def hasExtension (extension : String) (p : List String) : Bool :=
  p.getLast?.any fun name => endsWith name extension

/-- `PROFILE_DIR.rglob(…)`: directories are listed before what is in them. -/
def rglob (extension : String) (t : Tree) : List (List String) :=
  t.paths.filter (hasExtension extension)

/-- The removals that the system refuses, and when the others happen. -/
structure Host where
  refuses : List String → Bool
  now : List String → Int

def cutoffTime (timestamp retentionDays : Int) : Int :=
  (timestamp - retentionDays * 86400) * 1000000000

def removeOld (host : Host) (cutoff : Int) (extension : String) (t : Tree) : Swept String :=
  sweep (unlinkOlder host.refuses host.now cutoff) (rglob extension t) t

def removeEmpty (host : Host) (t : Tree) : Swept String :=
  sweep (rmdirEmpty host.refuses host.now) (reverseSorted t.paths) t

/-- `_cleanup_old_profiles`; where it is not completed it logs a warning. -/
def cleanupOldProfiles (host : Host) (cutoff : Int) (t : Tree) : Swept String :=
  ((removeOld host cutoff ".json" t).andThen (removeOld host cutoff ".html")).andThen
    (removeEmpty host)

/-- The name of a profile, though not only of profiles. -/
def IsProfile (p : List String) : Prop :=
  hasExtension ".json" p = true ∨ hasExtension ".html" p = true

instance (p : List String) : Decidable (IsProfile p) := inferInstanceAs (Decidable (_ ∨ _))

/-! ## The passes -/

section Passes

variable {host : Host} {cutoff : Int} {extension : String} {t : Tree} {p : List String}

theorem mem_rglob : p ∈ rglob extension t ↔ p ∈ t.paths ∧ hasExtension extension p = true :=
  List.mem_filter

theorem listed_rglob (extension : String) (t : Tree) :
    (rglob extension t).Pairwise fun p q => ¬ q <+: p := by
  have hlisted : t.paths.Pairwise fun p q => ¬ q <+: p := List.pairwise_map.mpr t.listed
  exact hlisted.sublist List.filter_sublist

theorem mem_rglob_of_expired (hext : hasExtension extension p = true)
    (h : Expired cutoff t p) : p ∈ rglob extension t := by
  obtain ⟨mtime, hfile, -⟩ := h
  exact mem_rglob.mpr ⟨mem_paths_iff.mpr (.inr ⟨mtime, hfile⟩), hext⟩

theorem fileTime_removeOld (host : Host) (cutoff : Int) (extension : String) (t : Tree)
    (p : List String) :
    (removeOld host cutoff extension t).tree.fileTime p = t.fileTime p ∨
      hasExtension extension p = true ∧ Expired cutoff t p ∧
        (removeOld host cutoff extension t).tree.fileTime p = none := by
  have hsweep : (removeOld host cutoff extension t).tree.fileTime p = t.fileTime p ∨
      p ∈ rglob extension t ∧ Expired cutoff t p ∧
        (removeOld host cutoff extension t).tree.fileTime p = none :=
    fileTime_sweep_unlinkOlder p
  rcases hsweep with hsame | ⟨hmem, hremoved⟩
  · exact .inl hsame
  · exact .inr ⟨(mem_rglob.mp hmem).2, hremoved⟩

theorem fileTime_removeOld_of_completed (h : (removeOld host cutoff extension t).completed = true)
    (hext : hasExtension extension p = true) (hexpired : Expired cutoff t p) :
    (removeOld host cutoff extension t).tree.fileTime p = none :=
  fileTime_completed h p (mem_rglob_of_expired hext hexpired) hexpired

theorem isDir_removeOld (p : List String) :
    (removeOld host cutoff extension t).tree.isDir p = t.isDir p :=
  isDir_sweep_unlinkOlder p

end Passes

/-! ## One clean-up -/

def Thinned (cutoff : Int) (t t' : Tree) : Prop :=
  ∀ p, t'.fileTime p = t.fileTime p ∨ IsProfile p ∧ Expired cutoff t p ∧ t'.fileTime p = none

section CleanUp

variable {host : Host} {cutoff : Int} {t t₁ t₂ : Tree}

theorem Thinned.trans (h : Thinned cutoff t t₁) (h' : Thinned cutoff t₁ t₂) :
    Thinned cutoff t t₂ := by
  intro p
  rcases h' p with hsame | ⟨hprofile, ⟨mtime, hfile, hold⟩, hgone⟩
  · rw [hsame]
    exact h p
  · rcases h p with hsame | ⟨-, -, hnone⟩
    · exact .inr ⟨hprofile, ⟨mtime, hsame ▸ hfile, hold⟩, hgone⟩
    · rw [hnone] at hfile
      cases hfile

theorem thinned_removeOld {extension : String} (hext : extension ∈ [".json", ".html"])
    (t : Tree) : Thinned cutoff t (removeOld host cutoff extension t).tree := by
  intro p
  rcases fileTime_removeOld host cutoff extension t p with hsame | ⟨hnamed, hremoved⟩
  · exact .inl hsame
  · refine .inr ⟨?_, hremoved⟩
    rcases List.mem_cons.mp hext with rfl | hhtml
    · exact .inl hnamed
    · obtain rfl := List.mem_singleton.mp hhtml
      exact .inr hnamed

theorem thinned_cleanup (host : Host) (cutoff : Int) (t : Tree) :
    Thinned cutoff t (cleanupOldProfiles host cutoff t).tree := by
  have hjson : Thinned cutoff t (removeOld host cutoff ".json" t).tree :=
    thinned_removeOld (by simp) t
  have hboth : Thinned cutoff t
      ((removeOld host cutoff ".json" t).andThen (removeOld host cutoff ".html")).tree :=
    andThen_of_both hjson (hjson.trans (thinned_removeOld (by simp) _))
  refine andThen_of_both hboth fun p => ?_
  rw [removeEmpty, fileTime_sweep_rmdirEmpty]
  exact hboth p

theorem isDir_of_isDir_cleanup {p : List String}
    (h : (cleanupOldProfiles host cutoff t).tree.isDir p = true) : t.isDir p = true := by
  have hboth :
      ((removeOld host cutoff ".json" t).andThen (removeOld host cutoff ".html")).tree.isDir p =
        t.isDir p := by
    refine andThen_of_both (P := fun t' => t'.isDir p = t.isDir p) (isDir_removeOld p) ?_
    rw [isDir_removeOld, isDir_removeOld]
  refine andThen_of_both (P := fun t' => t'.isDir p = true → t.isDir p = true) ?_ ?_ h
  · exact fun hdir => hboth ▸ hdir
  · exact fun hdir => hboth ▸ isDir_of_isDir_sweep hdir

theorem pruned_removeEmpty (h : (removeEmpty host t).completed = true) :
    Pruned t t.paths (removeEmpty host t).tree := by
  have hstart : Pruned t [] t := ⟨fun q => rfl, fun q => by simp⟩
  have hnodup : (reverseSorted t.paths).Nodup := (perm_reverseSorted _).nodup_iff.mpr t.nodup_paths
  have hend := pruned_sweep hstart (by simpa using hnodup)
    (fun q hq => by simpa using (perm_reverseSorted _).mem_iff.mpr hq)
    (pairwise_reverseSorted t.nodup_paths) h
  refine ⟨hend.files, fun q => (hend.dirs q).trans ?_⟩
  rw [List.nil_append, (perm_reverseSorted t.paths).mem_iff]

structure CleanedUp (cutoff : Int) (t t' : Tree) : Prop where
  expired : ∀ p, IsProfile p → Expired cutoff t p → t'.fileTime p = none
  files : ∀ p, ¬ (IsProfile p ∧ Expired cutoff t p) → t'.fileTime p = t.fileTime p
  dirs : ∀ p, t'.isDir p = true ↔ t.isDir p = true ∧ Occupied t' p

theorem cleanedUp_of_completed (h : (cleanupOldProfiles host cutoff t).completed = true) :
    CleanedUp cutoff t (cleanupOldProfiles host cutoff t).tree := by
  have hthin := thinned_cleanup host cutoff t
  obtain ⟨hboth, hempty⟩ := completed_andThen h
  obtain ⟨hjson, hhtml⟩ := completed_andThen hboth
  rw [cleanupOldProfiles, andThen_of_completed hboth, andThen_of_completed hjson] at hthin ⊢
  rw [andThen_of_completed hjson] at hempty
  have hpruned := pruned_removeEmpty hempty
  refine ⟨fun p hprofile hexpired => ?_, fun p hkept => ?_, fun p => ?_⟩
  · rw [hpruned.files]
    rcases hprofile with hname | hname
    · have hnone := fileTime_removeOld_of_completed hjson hname hexpired
      rcases fileTime_removeOld host cutoff ".html" (removeOld host cutoff ".json" t).tree p with
        hsame | ⟨-, -, hgone⟩
      · rw [hsame, hnone]
      · exact hgone
    · rcases fileTime_removeOld host cutoff ".json" t p with hsame | ⟨-, -, hgone⟩
      · obtain ⟨mtime, hfile, hold⟩ := hexpired
        exact fileTime_removeOld_of_completed hhtml hname ⟨mtime, hsame ▸ hfile, hold⟩
      · rcases fileTime_removeOld host cutoff ".html" (removeOld host cutoff ".json" t).tree p with
          hsame | ⟨-, -, hgone'⟩
        · rw [hsame, hgone]
        · exact hgone'
  · exact (hthin p).resolve_right fun hgone => hkept ⟨hgone.1, hgone.2.1⟩
  · rw [hpruned.dirs p, isDir_removeOld, isDir_removeOld, hpruned.occupied_iff]
    constructor
    · rintro ⟨hdir, hoccupied⟩
      refine ⟨hdir, hoccupied (mem_paths_iff.mpr (.inl ?_))⟩
      rw [isDir_removeOld, isDir_removeOld, hdir]
    · exact fun hand => ⟨hand.1, fun _ => hand.2⟩

theorem completed_removeOld {extension : String} (hallowed : ∀ p, host.refuses p = false)
    (hdirs : ∀ p, t.isDir p = true → hasExtension extension p = false) :
    (removeOld host cutoff extension t).completed = true := by
  refine completed_of_files (t.nodup_paths.sublist List.filter_sublist) (fun p hp => ?_)
    fun p _ => hallowed p
  obtain ⟨hpath, hext⟩ := mem_rglob.mp hp
  rcases mem_paths_iff.mp hpath with hdir | ⟨mtime, hfile⟩
  · rw [hdirs p hdir] at hext
    cases hext
  · rw [hfile]
    exact Option.some_ne_none mtime

theorem completed_cleanup (hallowed : ∀ p, host.refuses p = false)
    (hdirs : ∀ p, t.isDir p = true → ¬ IsProfile p) :
    (cleanupOldProfiles host cutoff t).completed = true := by
  have hjson : (removeOld host cutoff ".json" t).completed = true :=
    completed_removeOld hallowed fun p hdir => by
      simpa using fun hext => hdirs p hdir (.inl hext)
  have hhtml : (removeOld host cutoff ".html" (removeOld host cutoff ".json" t).tree).completed =
      true :=
    completed_removeOld hallowed fun p hdir => by
      rw [isDir_removeOld] at hdir
      simpa using fun hext => hdirs p hdir (.inr hext)
  rw [cleanupOldProfiles, andThen_of_completed hjson, andThen_of_completed hhtml]
  exact completed_sweep_rmdirEmpty hallowed _ _

/-- A directory of which no old file with the extension is an entry is as it was. -/
theorem stat_removeOld_of_no_entry (host : Host) {extension : String} {d : List String}
    {mtime : Int} (hd : t.stat d = some (.dir mtime))
    (hentries : ∀ name, hasExtension extension (d ++ [name]) = true →
      ¬ Expired cutoff t (d ++ [name])) :
    (removeOld host cutoff extension t).tree.stat d = some (.dir mtime) := by
  suffices hkept : (removeOld host cutoff extension t).tree.stat d = some (.dir mtime) ∧
      ∀ p, (removeOld host cutoff extension t).tree.fileTime p = t.fileTime p ∨
        (removeOld host cutoff extension t).tree.fileTime p = none from hkept.1
  refine sweep_invariant (P := fun t' => t'.stat d = some (.dir mtime) ∧
    ∀ p, t'.fileTime p = t.fileTime p ∨ t'.fileTime p = none) ?_ ⟨hd, fun p => .inl rfl⟩
  · intro p hp t₁ t₂ hbefore hstep
    obtain ⟨hdir, hfiles⟩ := hbefore
    refine ⟨?_, fun q => ?_⟩
    · rcases unlinkOlder_cases hstep with ⟨rfl, -⟩ | ⟨m, hfile, hold, hleaf, rfl⟩
      · exact hdir
      · refine stat_remove_of_ne hdir ?_ ?_
        · rintro rfl
          rw [fileTime_eq_some_iff.mp hfile] at hdir
          cases hdir
        · rintro rfl
          obtain ⟨hpath, hext⟩ := mem_rglob.mp hp
          have hpne := ne_nil_of_mem_paths hpath
          rw [← List.dropLast_append_getLast hpne] at hfile hext
          refine hentries _ hext ⟨m, ?_, hold⟩
          rcases hfiles (p.dropLast ++ [p.getLast hpne]) with hsame | hnone
          · rw [← hsame, hfile]
          · rw [hnone] at hfile
            cases hfile
    · rw [fileTime_unlinkOlder hstep]
      split_ifs
      · exact .inr rfl
      · exact hfiles q

/-- An old directory with the name of a profile, which is as old when its pass comes. -/
def StopsAt (cutoff : Int) (t : Tree) (d : List String) : Prop :=
  ∃ mtime, t.stat d = some (.dir mtime) ∧ mtime < cutoff ∧
    (hasExtension ".json" d = true ∨
      hasExtension ".html" d = true ∧ ∀ name, hasExtension ".json" (d ++ [name]) = true →
        ¬ Expired cutoff t (d ++ [name]))

theorem stopped_removeOld (host : Host) {extension : String} {d : List String} {mtime : Int}
    (hext : hasExtension extension d = true) (hd : t.stat d = some (.dir mtime))
    (hold : mtime < cutoff) :
    (removeOld host cutoff extension t).completed = false ∧
      (removeOld host cutoff extension t).tree.stat d = some (.dir mtime) := by
  have hpath : d ∈ t.paths := mem_paths_iff.mpr (.inl (isDir_iff.mpr ⟨mtime, hd⟩))
  exact stopped_at_dir (listed_rglob extension t) (mem_rglob.mpr ⟨hpath, hext⟩) hd hold

theorem stopped_cleanup {d : List String} (h : StopsAt cutoff t d) :
    (cleanupOldProfiles host cutoff t).completed = false ∧
      ∀ p, (cleanupOldProfiles host cutoff t).tree.isDir p = t.isDir p := by
  obtain ⟨mtime, hd, hold, hname⟩ := h
  cases hjson : (removeOld host cutoff ".json" t).completed with
  | false =>
      rw [cleanupOldProfiles, andThen_of_stopped hjson, andThen_of_stopped hjson]
      exact ⟨hjson, isDir_removeOld⟩
  | true =>
      obtain hjsonName | ⟨hhtmlName, hentries⟩ := hname
      · rw [(stopped_removeOld host hjsonName hd hold).1] at hjson
        cases hjson
      · have hd' := stat_removeOld_of_no_entry host hd hentries
        have hhtml := (stopped_removeOld host hhtmlName hd' hold).1
        rw [cleanupOldProfiles, andThen_of_completed hjson, andThen_of_stopped hhtml]
        exact ⟨hhtml, fun p => by rw [isDir_removeOld, isDir_removeOld]⟩

structure CleanupContract (cutoff : Int) (t : Tree) (s : Swept String) : Prop where
  thinned : Thinned cutoff t s.tree
  dirs : ∀ p, s.tree.isDir p = true → t.isDir p = true
  cleanedUp : s.completed = true → CleanedUp cutoff t s.tree
  stopped : (∃ d, StopsAt cutoff t d) →
    s.completed = false ∧ ∀ p, s.tree.isDir p = t.isDir p

end CleanUp

/-- In every tree, a clean-up removes old profiles only, whether it is completed or not; a
completed one removes all of them and exactly the directories that have no file left below
them; an old directory named like a profile stops it, and then no directory goes; without
such directories, and where the system refuses nothing, it is completed. -/
theorem cleanup_old_profiles (host : Host) (cutoff : Int) (t : Tree) :
    CleanupContract cutoff t (cleanupOldProfiles host cutoff t) ∧
      ((∀ p, host.refuses p = false) → (∀ p, t.isDir p = true → ¬ IsProfile p) →
        (cleanupOldProfiles host cutoff t).completed = true) :=
  ⟨{ thinned := thinned_cleanup _ _ t
     dirs := fun _ => isDir_of_isDir_cleanup
     cleanedUp := cleanedUp_of_completed
     stopped := fun ⟨_, h⟩ => stopped_cleanup h }, completed_cleanup⟩

/-! ## Every run -/

inductive Event
  | mkdir (now : Int) (p : List String)
  | writeText (now : Int) (p : List String)
  | cleanup (host : Host) (timestamp : Int)

/-- A call that raises an `OSError` leaves the tree as it is. -/
def handle (retentionDays : Int) (t : Tree) : Event → Tree
  | .mkdir now p => (mkdir now p t).getD t
  | .writeText now p => (writeText now p t).getD t
  | .cleanup host timestamp =>
      (cleanupOldProfiles host (cutoffTime timestamp retentionDays) t).tree

def after (retentionDays : Int) (t : Tree) (events : List Event) : Tree :=
  events.foldl (handle retentionDays) t

def writeTime (p : List String) (t : Tree) : Event → Option Int
  | .writeText now q => if q = p ∧ t.Writable q then some now else none
  | _ => none

def writeTimes (retentionDays : Int) (p : List String) : Tree → List Event → List Int
  | _, [] => []
  | t, e :: events =>
      (writeTime p t e).toList ++ writeTimes retentionDays p (handle retentionDays t e) events

def Spares (retentionDays : Int) (p : List String) (mtime : Int) : Event → Prop
  | .mkdir _ _ => True
  | .writeText _ q => q ≠ p
  | .cleanup _ timestamp => IsProfile p → cutoffTime timestamp retentionDays ≤ mtime

/-- The event leaves the entries of `d` alone, and the directory is too old when it cleans
up. -/
def PassesBy (retentionDays : Int) (d : List String) (mtime : Int) : Event → Prop
  | .mkdir _ q => d ≠ q.dropLast
  | .writeText _ q => d ≠ q.dropLast
  | .cleanup _ timestamp => mtime < cutoffTime timestamp retentionDays

section Runs

variable {retentionDays : Int} {t : Tree} {p d : List String} {mtime : Int} {e : Event}

theorem handle_writeText_of_writable {now : Int} (h : t.Writable p) :
    (handle retentionDays t (.writeText now p)).fileTime p = some now := by
  obtain ⟨t', hstep⟩ := Option.isSome_iff_exists.mp (isSome_writeText_iff.mpr h)
  rw [handle, hstep, Option.getD_some, fileTime_writeText hstep, if_pos rfl]

theorem handle_writeText_of_not_writable {now : Int} (h : ¬ t.Writable p) :
    handle retentionDays t (.writeText now p) = t := by
  have hnone : writeText now p t = none := by
    rw [← Option.not_isSome_iff_eq_none, isSome_writeText_iff]
    exact h
  rw [handle, hnone, Option.getD_none]

theorem fileTime_handle (h : (handle retentionDays t e).fileTime p = some mtime) :
    (writeTime p t e).or (t.fileTime p) = some mtime := by
  cases e with
  | mkdir now q =>
      change t.fileTime p = some mtime
      simp only [handle] at h
      cases hstep : mkdir now q t with
      | none => simpa [hstep] using h
      | some t' =>
          rw [hstep, Option.getD_some, fileTime_mkdir hstep] at h
          exact h
  | writeText now q =>
      by_cases hwritable : t.Writable q
      · obtain ⟨t', hstep⟩ := Option.isSome_iff_exists.mp (isSome_writeText_iff.mpr hwritable)
        rw [handle, hstep, Option.getD_some, fileTime_writeText hstep] at h
        by_cases hp : q = p
        · rw [if_pos hp.symm] at h
          rw [writeTime, if_pos ⟨hp, hwritable⟩, Option.some_or, h]
        · rw [if_neg (Ne.symm hp)] at h
          rw [writeTime, if_neg fun hand => hp hand.1, Option.none_or, h]
      · rw [handle_writeText_of_not_writable hwritable] at h
        rw [writeTime, if_neg fun hand => hwritable hand.2, Option.none_or, h]
  | cleanup host timestamp =>
      rcases thinned_cleanup host (cutoffTime timestamp retentionDays) t p with
        hsame | ⟨-, -, hnone⟩
      · exact hsame ▸ h
      · simp only [handle] at h
        rw [hnone] at h
        cases h

theorem fileTime_handle_of_spares (h : t.fileTime p = some mtime)
    (he : Spares retentionDays p mtime e) : (handle retentionDays t e).fileTime p = some mtime := by
  cases e with
  | mkdir now q =>
      simp only [handle]
      cases hstep : mkdir now q t with
      | none => exact h
      | some t' => rw [Option.getD_some, fileTime_mkdir hstep, h]
  | writeText now q =>
      simp only [handle]
      cases hstep : writeText now q t with
      | none => exact h
      | some t' => rw [Option.getD_some, fileTime_writeText hstep, if_neg (Ne.symm he), h]
  | cleanup host timestamp =>
      rcases thinned_cleanup host (cutoffTime timestamp retentionDays) t p with
        hsame | ⟨hprofile, ⟨m, hfile, hold⟩, -⟩
      · exact hsame.trans h
      · have hyoung := he hprofile
        have hm := Option.some.inj (hfile.symm.trans h)
        omega

theorem stat_handle_of_passesBy (hname : hasExtension ".json" d = true)
    (h : t.stat d = some (.dir mtime)) (he : PassesBy retentionDays d mtime e) :
    (handle retentionDays t e).stat d = some (.dir mtime) ∧
      ∀ p, t.isDir p = true → (handle retentionDays t e).isDir p = true := by
  cases e with
  | mkdir now q =>
      simp only [handle]
      cases hstep : mkdir now q t with
      | none => exact ⟨h, fun _ => id⟩
      | some t' => exact ⟨stat_mkdir_of_ne hstep h he, fun _ => isDir_mkdir hstep⟩
  | writeText now q =>
      simp only [handle]
      cases hstep : writeText now q t with
      | none => exact ⟨h, fun _ => id⟩
      | some t' => exact ⟨stat_writeText_of_ne hstep h he, fun _ => isDir_writeText hstep⟩
  | cleanup host timestamp =>
      obtain ⟨hstopped, hdir⟩ := stopped_removeOld host hname h he
      simp only [handle, cleanupOldProfiles]
      rw [andThen_of_stopped hstopped, andThen_of_stopped hstopped]
      exact ⟨hdir, fun p hp => by rw [isDir_removeOld, hp]⟩

theorem fileTime_after {events : List Event}
    (h : (after retentionDays t events).fileTime p = some mtime) :
    (writeTimes retentionDays p t events).getLast?.or (t.fileTime p) = some mtime := by
  induction events generalizing t with
  | nil => exact h
  | cons e events ih =>
      have hrest : (writeTimes retentionDays p (handle retentionDays t e) events).getLast?.or
          ((handle retentionDays t e).fileTime p) = some mtime := ih h
      have hfirst : (writeTime p t e).toList.getLast? = writeTime p t e := by
        cases writeTime p t e <;> rfl
      rw [writeTimes, List.getLast?_append, hfirst, Option.or_assoc]
      cases hlater :
          (writeTimes retentionDays p (handle retentionDays t e) events).getLast? with
      | none =>
          rw [hlater] at hrest
          exact fileTime_handle hrest
      | some later =>
          rw [hlater] at hrest
          exact hrest

theorem fileTime_after_of_spares {events : List Event} (h : t.fileTime p = some mtime)
    (hevents : ∀ e ∈ events, Spares retentionDays p mtime e) :
    (after retentionDays t events).fileTime p = some mtime := by
  induction events generalizing t with
  | nil => exact h
  | cons e events ih =>
      have hfirst := fileTime_handle_of_spares h (hevents e List.mem_cons_self)
      exact ih hfirst fun e' he' => hevents e' (List.mem_cons_of_mem e he')

theorem stat_after_of_passesBy {events : List Event} (hname : hasExtension ".json" d = true)
    (h : t.stat d = some (.dir mtime))
    (hevents : ∀ e ∈ events, PassesBy retentionDays d mtime e) :
    (after retentionDays t events).stat d = some (.dir mtime) ∧
      ∀ p, t.isDir p = true → (after retentionDays t events).isDir p = true := by
  induction events generalizing t with
  | nil => exact ⟨h, fun _ => id⟩
  | cons e events ih =>
      obtain ⟨hstat, hdirs⟩ := stat_handle_of_passesBy hname h (hevents e List.mem_cons_self)
      obtain ⟨hstat', hdirs'⟩ := ih hstat fun e' he' => hevents e' (List.mem_cons_of_mem e he')
      exact ⟨hstat', fun p hp => hdirs' p (hdirs p hp)⟩

end Runs

structure RetentionContract (retentionDays : Int) (t : Tree) (events : List Event) : Prop where
  /-- What is there is as old as the last write to it; without one, as it was. -/
  written : ∀ p mtime, (after retentionDays t events).fileTime p = some mtime →
    (writeTimes retentionDays p t events).getLast?.or (t.fileTime p) = some mtime
  saved : ∀ p now, (after retentionDays t events).Writable p →
    (after retentionDays t (events ++ [.writeText now p])).fileTime p = some now
  retained : ∀ p mtime, t.fileTime p = some mtime →
    (∀ e ∈ events, Spares retentionDays p mtime e) →
    (after retentionDays t events).fileTime p = some mtime
  bounded : ∀ host timestamp, (cleanupOldProfiles host (cutoffTime timestamp retentionDays)
      (after retentionDays t events)).completed = true →
    ∀ p mtime, IsProfile p →
      (after retentionDays t (events ++ [.cleanup host timestamp])).fileTime p = some mtime →
      cutoffTime timestamp retentionDays ≤ mtime
  /-- Once such a directory is old, no directory is removed any more. -/
  stuck : ∀ d mtime, hasExtension ".json" d = true → t.stat d = some (.dir mtime) →
    (∀ e ∈ events, PassesBy retentionDays d mtime e) →
    (after retentionDays t events).stat d = some (.dir mtime) ∧
      ∀ p, t.isDir p = true → (after retentionDays t events).isDir p = true

/-- The directory for the profiles of `/openapi.json`. -/
example : hasExtension ".json"
    (profilePath ⟨"/", ["profiles"]⟩ ⟨2024, 1, 31, 0⟩ "/openapi.json").parts = true := by
  decide +kernel

end BackendProdReady.Api.ProfileRetention
