import BackendProdReady.Lib.InsertionDict
import Mathlib.Data.List.Infix
import Mathlib.Data.List.Lex
import Mathlib.Data.List.Nodup
import Mathlib.Data.List.Sort

/-!
# File trees

The files and directories below a root, by their paths, with the times at which they were
last changed.  Removing an entry changes the directory it was in.  There are no links.
-/

namespace BackendProdReady.Lib.FileTrees

open BackendProdReady.Lib.InsertionDict
open BackendProdReady.Lib.InsertionDict.Dict

inductive Node
  | file (mtime : Int)
  | dir (mtime : Int)
deriving DecidableEq

def Node.mtime : Node → Int
  | .file mtime => mtime
  | .dir mtime => mtime

def Node.touched (now : Int) : Node → Node
  | .file mtime => .file mtime
  | .dir _ => .dir now

theorem file_eq_touched_iff {now mtime : Int} {node : Node} {P : Prop} [Decidable P] :
    (Node.file mtime = if P then node.touched now else node) ↔ node = .file mtime := by
  cases node with
  | file m => split_ifs <;> exact eq_comm
  | dir m => split_ifs <;> simp [Node.touched]

theorem dir_eq_touched_iff {now mtime : Int} {node : Node} {P : Prop} [Decidable P] :
    (Node.dir mtime = if P then node.touched now else node) ↔
      ∃ old, node = .dir old ∧ mtime = if P then now else old := by
  cases node with
  | file m => split_ifs <;> simp [Node.touched]
  | dir m => split_ifs <;> simp [Node.touched, eq_comm]

/-- The nodes below the root, in an order in which no node is listed before its directory. -/
structure FileTree (α : Type) [DecidableEq α] where
  nodes : Dict (List α) Node
  listed : nodes.Pairwise fun a b => ¬ b.1 <+: a.1
  closed : ∀ p name node, (p ++ [name], node) ∈ nodes → p ≠ [] → ∃ mtime, (p, .dir mtime) ∈ nodes
  rooted : ∀ node, ([], node) ∉ nodes

variable {α : Type} [DecidableEq α]

namespace FileTree

/-! ## Reading -/

/-- `none` is `FileNotFoundError`. -/
def stat (t : FileTree α) (p : List α) : Option Node := t.nodes.find p

def isDir (t : FileTree α) (p : List α) : Bool :=
  match t.stat p with
  | some (.dir _) => true
  | _ => false

def fileTime (t : FileTree α) (p : List α) : Option Int :=
  match t.stat p with
  | some (.file mtime) => some mtime
  | _ => none

/-- `any(p.iterdir())`. -/
def hasEntries (t : FileTree α) (p : List α) : Bool := t.nodes.any fun e => e.1.dropLast = p

def paths (t : FileTree α) : List (List α) := t.nodes.keys

theorem nodup_paths (t : FileTree α) : t.paths.Nodup := by
  refine List.pairwise_map.mpr (t.listed.imp ?_)
  intro a b hpre heq
  exact hpre (heq ▸ List.prefix_rfl)

theorem stat_eq_some_iff {t : FileTree α} {p : List α} {node : Node} :
    t.stat p = some node ↔ (p, node) ∈ t.nodes :=
  ⟨mem_of_find, find_of_mem t.nodup_paths⟩

theorem isDir_iff {t : FileTree α} {p : List α} :
    t.isDir p = true ↔ ∃ mtime, t.stat p = some (.dir mtime) := by
  unfold isDir
  split
  · rename_i mtime h
    simp [h]
  · rename_i h
    simp only [Bool.false_eq_true, false_iff, not_exists]
    exact h

theorem fileTime_eq_some_iff {t : FileTree α} {p : List α} {mtime : Int} :
    t.fileTime p = some mtime ↔ t.stat p = some (.file mtime) := by
  unfold fileTime
  split
  · rename_i m h
    simp [h]
  · rename_i h
    simpa using h mtime

theorem mem_paths_iff {t : FileTree α} {p : List α} :
    p ∈ t.paths ↔ t.isDir p = true ∨ ∃ mtime, t.fileTime p = some mtime := by
  rw [paths, mem_keys_iff, ← stat, isDir_iff]
  simp only [fileTime_eq_some_iff, Option.isSome_iff_exists]
  constructor
  · rintro ⟨node, hnode⟩
    cases node with
    | file mtime => exact .inr ⟨mtime, hnode⟩
    | dir mtime => exact .inl ⟨mtime, hnode⟩
  · rintro (⟨mtime, h⟩ | ⟨mtime, h⟩)
    · exact ⟨_, h⟩
    · exact ⟨_, h⟩

theorem isDir_eq_false_of_file {t : FileTree α} {p : List α} {mtime : Int}
    (h : t.fileTime p = some mtime) : t.isDir p = false := by
  rw [fileTime_eq_some_iff] at h
  simp [isDir, h]

/-- The directory of a node is there. -/
theorem isDir_of_child {t : FileTree α} {p : List α} {name : α} (h : p ++ [name] ∈ t.paths)
    (hp : p ≠ []) : t.isDir p = true := by
  obtain ⟨⟨_, node⟩, hmem, rfl⟩ := List.mem_map.mp h
  obtain ⟨mtime, hdir⟩ := t.closed p name node hmem hp
  exact isDir_iff.mpr ⟨mtime, stat_eq_some_iff.mpr hdir⟩

theorem ne_nil_of_mem_paths {t : FileTree α} {p : List α} (h : p ∈ t.paths) : p ≠ [] := by
  rintro rfl
  obtain ⟨⟨_, node⟩, hmem, rfl⟩ := List.mem_map.mp h
  exact t.rooted node hmem

theorem hasEntries_iff {t : FileTree α} {p : List α} :
    t.hasEntries p = true ↔ ∃ name, p ++ [name] ∈ t.paths := by
  simp only [hasEntries, List.any_eq_true, decide_eq_true_eq]
  constructor
  · rintro ⟨e, he, rfl⟩
    have hmem : e.1 ∈ t.paths := List.mem_map_of_mem he
    have hne := ne_nil_of_mem_paths hmem
    exact ⟨e.1.getLast hne, by rwa [List.dropLast_append_getLast hne]⟩
  · rintro ⟨name, hname⟩
    obtain ⟨e, he, heq⟩ := List.mem_map.mp hname
    exact ⟨e, he, by rw [heq, List.dropLast_concat]⟩

/-- A file has no entries. -/
theorem hasEntries_of_file {t : FileTree α} {p : List α} {mtime : Int}
    (h : t.stat p = some (.file mtime)) : t.hasEntries p = false := by
  rw [Bool.eq_false_iff]
  intro hentries
  obtain ⟨name, hname⟩ := hasEntries_iff.mp hentries
  have hfile := fileTime_eq_some_iff.mpr h
  have hdir := isDir_of_child hname (ne_nil_of_mem_paths (mem_paths_iff.mpr (.inr ⟨_, hfile⟩)))
  rw [isDir_eq_false_of_file hfile] at hdir
  cases hdir

/-! ## Removing -/

def touchDir (now : Int) (d : List α) (nodes : Dict (List α) Node) : Dict (List α) Node :=
  nodes.map fun e => (e.1, if e.1 = d then e.2.touched now else e.2)

theorem mem_touchDir {now : Int} {d q : List α} {nodes : Dict (List α) Node} {node : Node} :
    (q, node) ∈ touchDir now d nodes ↔
      ∃ old, (q, old) ∈ nodes ∧ node = if q = d then old.touched now else old := by
  simp only [touchDir, List.mem_map]
  constructor
  · rintro ⟨⟨q', old⟩, hmem, heq⟩
    obtain ⟨rfl, rfl⟩ := Prod.mk.inj heq
    exact ⟨old, hmem, rfl⟩
  · rintro ⟨old, hmem, rfl⟩
    exact ⟨(q, old), hmem, rfl⟩

theorem dir_mem_touchDir {now mtime : Int} {d q : List α} {nodes : Dict (List α) Node}
    (h : (q, .dir mtime) ∈ nodes) : ∃ mtime', (q, .dir mtime') ∈ touchDir now d nodes := by
  by_cases hd : q = d
  · exact ⟨now, mem_touchDir.mpr ⟨_, h, by rw [if_pos hd]; rfl⟩⟩
  · exact ⟨mtime, mem_touchDir.mpr ⟨_, h, by rw [if_neg hd]⟩⟩

def remove (t : FileTree α) (now : Int) (p : List α) (h : t.hasEntries p = false) :
    FileTree α where
  nodes := touchDir now p.dropLast (removeIf (· = p) t.nodes)
  listed := by
    refine List.pairwise_map.mpr ?_
    exact t.listed.sublist List.filter_sublist
  closed := by
    intro q name node hmem hq
    obtain ⟨old, hold, -⟩ := mem_touchDir.mp hmem
    obtain ⟨mtime, hdir⟩ := t.closed q name old (List.mem_of_mem_filter hold) hq
    have hne : q ≠ p := by
      rintro rfl
      rw [Bool.eq_false_iff] at h
      exact h (hasEntries_iff.mpr ⟨name, List.mem_map_of_mem (List.mem_of_mem_filter hold)⟩)
    exact dir_mem_touchDir (List.mem_filter.mpr ⟨hdir, by simpa using hne⟩)
  rooted := by
    intro node hmem
    obtain ⟨old, hold, -⟩ := mem_touchDir.mp hmem
    exact t.rooted old (List.mem_of_mem_filter hold)

section Remove

variable {t : FileTree α} {now : Int} {p : List α} {h : t.hasEntries p = false}

theorem stat_remove_eq_some_iff {q : List α} {node : Node} :
    (t.remove now p h).stat q = some node ↔
      ∃ old, t.stat q = some old ∧ q ≠ p ∧
        node = if q = p.dropLast then old.touched now else old := by
  simp only [stat_eq_some_iff, remove, mem_touchDir, removeIf, List.mem_filter]
  constructor
  · rintro ⟨old, ⟨hmem, hne⟩, rfl⟩
    exact ⟨old, hmem, by simpa using hne, rfl⟩
  · rintro ⟨old, hmem, hne, rfl⟩
    exact ⟨old, ⟨hmem, by simpa using hne⟩, rfl⟩

theorem fileTime_remove (q : List α) :
    (t.remove now p h).fileTime q = if q = p then none else t.fileTime q := by
  refine Option.ext fun mtime => ?_
  simp only [fileTime_eq_some_iff, stat_remove_eq_some_iff, file_eq_touched_iff,
    Option.ite_none_left_eq_some]
  constructor
  · rintro ⟨old, hold, hne, rfl⟩
    exact ⟨hne, hold⟩
  · rintro ⟨hne, hfile⟩
    exact ⟨_, hfile, hne, rfl⟩

theorem stat_remove_dir_iff {q : List α} {mtime : Int} :
    (t.remove now p h).stat q = some (.dir mtime) ↔
      q ≠ p ∧ ∃ old, t.stat q = some (.dir old) ∧ mtime = if q = p.dropLast then now else old := by
  simp only [stat_remove_eq_some_iff, dir_eq_touched_iff]
  constructor
  · rintro ⟨_, hold, hne, old, rfl, rfl⟩
    exact ⟨hne, old, hold, rfl⟩
  · rintro ⟨hne, old, hold, rfl⟩
    exact ⟨_, hold, hne, old, rfl, rfl⟩

/-- Where nothing is removed, a directory is as it was. -/
theorem stat_remove_of_ne {d : List α} {mtime : Int} (hd : t.stat d = some (.dir mtime))
    (hne : d ≠ p) (hparent : d ≠ p.dropLast) :
    (t.remove now p h).stat d = some (.dir mtime) :=
  stat_remove_dir_iff.mpr ⟨hne, mtime, hd, by rw [if_neg hparent]⟩

theorem isDir_remove (q : List α) :
    (t.remove now p h).isDir q = (t.isDir q && q ≠ p) := by
  rw [Bool.eq_iff_iff]
  simp only [Bool.and_eq_true, isDir_iff, stat_remove_dir_iff, decide_eq_true_eq]
  constructor
  · rintro ⟨mtime, hne, old, hold, -⟩
    exact ⟨⟨old, hold⟩, hne⟩
  · rintro ⟨⟨old, hold⟩, hne⟩
    exact ⟨_, hne, old, hold, rfl⟩

end Remove

/-- `p.unlink()` at the time `now`; `none` is an `OSError`. -/
def unlink (refuses : List α → Bool) (now : Int) (p : List α) (t : FileTree α) :
    Option (FileTree α) :=
  match h : t.stat p with
  | some (.file _) => if refuses p then none else some (t.remove now p (hasEntries_of_file h))
  | _ => none

/-- `p.rmdir()` at the time `now`. -/
def rmdir (refuses : List α → Bool) (now : Int) (p : List α) (t : FileTree α) :
    Option (FileTree α) :=
  if h : t.isDir p = true ∧ t.hasEntries p = false then
    if refuses p then none else some (t.remove now p h.2)
  else none

section Unlink

variable {refuses : List α → Bool} {now : Int} {p : List α} {t t' : FileTree α}

theorem unlink_cases (h : unlink refuses now p t = some t') :
    (∃ mtime, t.fileTime p = some mtime) ∧ ∃ hleaf, t' = t.remove now p hleaf := by
  unfold unlink at h
  split at h
  · rename_i mtime hfile
    split_ifs at h
    exact ⟨⟨mtime, fileTime_eq_some_iff.mpr hfile⟩, _, (Option.some.inj h).symm⟩
  · cases h

theorem rmdir_cases (h : rmdir refuses now p t = some t') :
    t.isDir p = true ∧ t.hasEntries p = false ∧ ∃ hleaf, t' = t.remove now p hleaf := by
  unfold rmdir at h
  split_ifs at h with hdir
  exact ⟨hdir.1, hdir.2, _, (Option.some.inj h).symm⟩

theorem isSome_unlink (hfile : t.fileTime p ≠ none) (hallowed : refuses p = false) :
    (unlink refuses now p t).isSome := by
  obtain ⟨mtime, hmtime⟩ := Option.ne_none_iff_exists'.mp hfile
  rw [fileTime_eq_some_iff] at hmtime
  unfold unlink
  split
  · simp [hallowed]
  · rename_i hnot
    exact absurd hmtime (hnot mtime)

theorem unlink_dir (h : t.isDir p = true) : unlink refuses now p t = none := by
  obtain ⟨mtime, hdir⟩ := isDir_iff.mp h
  unfold unlink
  split
  · rename_i m hfile
    rw [hfile] at hdir
    cases hdir
  · rfl

end Unlink

/-! ## Sweeps -/

structure Swept (α : Type) [DecidableEq α] where
  tree : FileTree α
  completed : Bool

/-- Apply an operation to one path after the other, until it raises. -/
def sweep (op : List α → FileTree α → Option (FileTree α)) :
    List (List α) → FileTree α → Swept α
  | [], t => ⟨t, true⟩
  | p :: ps, t =>
      match op p t with
      | some t' => sweep op ps t'
      | none => ⟨t, false⟩

/-- Go on with a second sweep unless the first one was stopped. -/
def Swept.andThen (s : Swept α) (next : FileTree α → Swept α) : Swept α :=
  if s.completed then next s.tree else s

theorem andThen_of_both {P : FileTree α → Prop} {s : Swept α} {next : FileTree α → Swept α}
    (h : P s.tree) (hnext : P (next s.tree).tree) : P (s.andThen next).tree := by
  unfold Swept.andThen
  split_ifs
  · exact hnext
  · exact h

theorem andThen_of_completed {s : Swept α} {next : FileTree α → Swept α}
    (h : s.completed = true) : s.andThen next = next s.tree := if_pos h

theorem andThen_of_stopped {s : Swept α} {next : FileTree α → Swept α}
    (h : s.completed = false) : s.andThen next = s := by
  rw [Swept.andThen, h]
  rfl

theorem completed_andThen {s : Swept α} {next : FileTree α → Swept α}
    (h : (s.andThen next).completed = true) :
    s.completed = true ∧ (next s.tree).completed = true := by
  cases hs : s.completed with
  | false =>
      rw [andThen_of_stopped hs, hs] at h
      cases h
  | true =>
      rw [andThen_of_completed hs] at h
      exact ⟨rfl, h⟩

/-- What every operation keeps, a sweep keeps, whether it is completed or not. -/
theorem sweep_invariant {op : List α → FileTree α → Option (FileTree α)} {ps : List (List α)}
    {P : FileTree α → Prop} (hop : ∀ p ∈ ps, ∀ t t', P t → op p t = some t' → P t')
    {t : FileTree α} (h : P t) : P (sweep op ps t).tree := by
  induction ps generalizing t with
  | nil => exact h
  | cons p ps ih =>
      rw [sweep]
      cases hp : op p t with
      | none => exact h
      | some t' =>
          have hfirst := hop p List.mem_cons_self t t' h hp
          exact ih (fun q hq => hop q (List.mem_cons_of_mem p hq)) hfirst

section Older

variable (refuses : List α → Bool) (now : List α → Int) (cutoff : Int)

/-- `if p.stat().st_mtime < cutoff: p.unlink()`; `now p` is when that happens. -/
def unlinkOlder (p : List α) (t : FileTree α) : Option (FileTree α) :=
  match t.stat p with
  | none => none
  | some node => if node.mtime < cutoff then unlink refuses (now p) p t else some t

/-- `if p.is_dir() and not any(p.iterdir()): p.rmdir()` -/
def rmdirEmpty (p : List α) (t : FileTree α) : Option (FileTree α) :=
  if t.isDir p && !t.hasEntries p then rmdir refuses (now p) p t else some t

variable {refuses now cutoff} {p : List α} {t t' : FileTree α}

theorem unlinkOlder_cases (h : unlinkOlder refuses now cutoff p t = some t') :
    (t' = t ∧ ∀ mtime, t.fileTime p = some mtime → ¬ mtime < cutoff) ∨
      ∃ mtime, t.fileTime p = some mtime ∧ mtime < cutoff ∧
        ∃ hleaf, t' = t.remove (now p) p hleaf := by
  unfold unlinkOlder at h
  cases hstat : t.stat p with
  | none => simp [hstat] at h
  | some node =>
      simp only [hstat] at h
      split_ifs at h with hold
      · obtain ⟨⟨mtime, hfile⟩, hremoved⟩ := unlink_cases h
        have hnode := fileTime_eq_some_iff.mp hfile
        obtain rfl := Option.some.inj (hstat.symm.trans hnode)
        exact .inr ⟨mtime, hfile, hold, hremoved⟩
      · refine .inl ⟨(Option.some.inj h).symm, fun mtime hfile => ?_⟩
        have hnode := fileTime_eq_some_iff.mp hfile
        obtain rfl := Option.some.inj (hstat.symm.trans hnode)
        exact hold

theorem isDir_unlinkOlder (h : unlinkOlder refuses now cutoff p t = some t') (q : List α) :
    t'.isDir q = t.isDir q := by
  rcases unlinkOlder_cases h with ⟨rfl, -⟩ | ⟨mtime, hfile, -, hleaf, rfl⟩
  · rfl
  · rw [isDir_remove]
    by_cases hq : q = p
    · rw [hq, isDir_eq_false_of_file hfile, Bool.false_and]
    · simp [hq]

theorem fileTime_unlinkOlder (h : unlinkOlder refuses now cutoff p t = some t') (q : List α) :
    t'.fileTime q =
      if q = p ∧ ∃ mtime, t.fileTime q = some mtime ∧ mtime < cutoff then none
      else t.fileTime q := by
  rcases unlinkOlder_cases h with ⟨rfl, hyoung⟩ | ⟨mtime, hfile, hold, hleaf, rfl⟩
  · rw [if_neg]
    rintro ⟨rfl, mtime, hfile, hold⟩
    exact hyoung mtime hfile hold
  · rw [fileTime_remove]
    by_cases hq : q = p
    · rw [if_pos hq, if_pos ⟨hq, mtime, hq ▸ hfile, hold⟩]
    · rw [if_neg hq, if_neg fun hand => hq hand.1]

theorem rmdirEmpty_cases (h : rmdirEmpty refuses now p t = some t') :
    (t' = t ∧ ¬ (t.isDir p = true ∧ t.hasEntries p = false)) ∨
      (t.isDir p = true ∧ t.hasEntries p = false ∧ ∃ hleaf, t' = t.remove (now p) p hleaf) := by
  unfold rmdirEmpty at h
  split_ifs at h with hempty
  · exact .inr (rmdir_cases h)
  · exact .inl ⟨(Option.some.inj h).symm, by simpa using hempty⟩

theorem fileTime_rmdirEmpty (h : rmdirEmpty refuses now p t = some t') (q : List α) :
    t'.fileTime q = t.fileTime q := by
  rcases rmdirEmpty_cases h with ⟨rfl, -⟩ | ⟨hdir, -, hleaf, rfl⟩
  · rfl
  · rw [fileTime_remove]
    split_ifs with hq
    · cases hfile : t.fileTime q with
      | none => rfl
      | some mtime =>
          have hnot := isDir_eq_false_of_file hfile
          rw [hq, hdir] at hnot
          cases hnot
    · rfl

theorem isSome_rmdirEmpty (hallowed : refuses p = false) (t : FileTree α) :
    (rmdirEmpty refuses now p t).isSome := by
  unfold rmdirEmpty rmdir
  simp only [hallowed, Bool.false_eq_true, if_false]
  split_ifs with hempty hboth
  · rfl
  · exact absurd (by simpa using hempty) hboth
  · rfl

end Older

/-! ## Sweeps that remove old files -/

def Expired (cutoff : Int) (t : FileTree α) (p : List α) : Prop :=
  ∃ mtime, t.fileTime p = some mtime ∧ mtime < cutoff

section Sweeps

variable {refuses : List α → Bool} {now : List α → Int} {cutoff : Int} {ps : List (List α)}
  {t : FileTree α}

theorem isDir_sweep_unlinkOlder (q : List α) :
    (sweep (unlinkOlder refuses now cutoff) ps t).tree.isDir q = t.isDir q := by
  refine sweep_invariant (P := fun t' => t'.isDir q = t.isDir q) ?_ rfl
  intro p _ t₁ t₂ hsame hstep
  rw [isDir_unlinkOlder hstep, hsame]

/-- Whether it is completed or not, only old files of the list are removed. -/
theorem fileTime_sweep_unlinkOlder (q : List α) :
    (sweep (unlinkOlder refuses now cutoff) ps t).tree.fileTime q = t.fileTime q ∨
      q ∈ ps ∧ Expired cutoff t q ∧
        (sweep (unlinkOlder refuses now cutoff) ps t).tree.fileTime q = none := by
  refine sweep_invariant (P := fun t' => t'.fileTime q = t.fileTime q ∨
    q ∈ ps ∧ Expired cutoff t q ∧ t'.fileTime q = none) ?_ (.inl rfl)
  intro p hp t₁ t₂ hbefore hstep
  rw [fileTime_unlinkOlder hstep]
  split_ifs with hremoved
  · obtain ⟨rfl, mtime, hfile, hold⟩ := hremoved
    rcases hbefore with hsame | ⟨-, -, hnone⟩
    · exact .inr ⟨hp, ⟨mtime, hsame ▸ hfile, hold⟩, rfl⟩
    · rw [hnone] at hfile
      cases hfile
  · exact hbefore

theorem fileTime_completed
    (h : (sweep (unlinkOlder refuses now cutoff) ps t).completed = true) (q : List α) :
    q ∈ ps → Expired cutoff t q →
      (sweep (unlinkOlder refuses now cutoff) ps t).tree.fileTime q = none := by
  induction ps generalizing t with
  | nil => simp
  | cons p ps ih =>
      rw [sweep] at h ⊢
      intro hq hexpired
      cases hstep : unlinkOlder refuses now cutoff p t with
      | none => simp [hstep] at h
      | some t' =>
          simp only [hstep] at h ⊢
          have hfile := fileTime_unlinkOlder hstep q
          by_cases hqp : q = p
          · rw [if_pos ⟨hqp, hexpired⟩] at hfile
            have hsweep : (sweep (unlinkOlder refuses now cutoff) ps t').tree.fileTime q =
                t'.fileTime q ∨ q ∈ ps ∧ Expired cutoff t' q ∧
                  (sweep (unlinkOlder refuses now cutoff) ps t').tree.fileTime q = none :=
              fileTime_sweep_unlinkOlder q
            rcases hsweep with hsame | ⟨-, -, hnone⟩
            · rw [hsame, hfile]
            · exact hnone
          · rw [if_neg fun hand => hqp hand.1] at hfile
            obtain ⟨mtime, hmtime, hold⟩ := hexpired
            refine ih h ((List.mem_cons.mp hq).resolve_left hqp) ⟨mtime, ?_, hold⟩
            rw [hfile, hmtime]

theorem completed_of_files (hnodup : ps.Nodup) (hfiles : ∀ p ∈ ps, t.fileTime p ≠ none)
    (hallowed : ∀ p ∈ ps, refuses p = false) :
    (sweep (unlinkOlder refuses now cutoff) ps t).completed = true := by
  induction ps generalizing t with
  | nil => rfl
  | cons p ps ih =>
      obtain ⟨hp, hrest⟩ := List.nodup_cons.mp hnodup
      have hfile := hfiles p List.mem_cons_self
      have hstep : (unlinkOlder refuses now cutoff p t).isSome := by
        obtain ⟨mtime, hmtime⟩ := Option.ne_none_iff_exists'.mp hfile
        rw [unlinkOlder, fileTime_eq_some_iff.mp hmtime]
        simp only
        split_ifs
        · exact isSome_unlink hfile (hallowed p List.mem_cons_self)
        · rfl
      obtain ⟨t', ht'⟩ := Option.isSome_iff_exists.mp hstep
      rw [sweep, ht']
      refine ih hrest (fun q hq => ?_) fun q hq => hallowed q (List.mem_cons_of_mem p hq)
      have hne : q ≠ p := by
        rintro rfl
        exact hp hq
      rw [fileTime_unlinkOlder ht', if_neg fun hand => hne hand.1]
      exact hfiles q (List.mem_cons_of_mem p hq)

/-- An old directory stops the sweep, if the list has it before what is below it. -/
theorem stopped_at_dir (hlisted : ps.Pairwise fun p q => ¬ q <+: p) {d : List α}
    (hd : d ∈ ps) {mtime : Int} (hdir : t.stat d = some (.dir mtime)) (hold : mtime < cutoff) :
    (sweep (unlinkOlder refuses now cutoff) ps t).completed = false ∧
      (sweep (unlinkOlder refuses now cutoff) ps t).tree.stat d = some (.dir mtime) := by
  induction ps generalizing t with
  | nil => cases hd
  | cons p ps ih =>
      obtain ⟨hbefore, hrest⟩ := List.pairwise_cons.mp hlisted
      rw [sweep]
      cases hstep : unlinkOlder refuses now cutoff p t with
      | none => exact ⟨rfl, hdir⟩
      | some t' =>
          rcases List.mem_cons.mp hd with rfl | hmem
          · have hnone : unlinkOlder refuses now cutoff d t = none := by
              rw [unlinkOlder, hdir]
              exact (if_pos hold).trans (unlink_dir (isDir_iff.mpr ⟨_, hdir⟩))
            rw [hnone] at hstep
            cases hstep
          · refine ih hrest hmem ?_
            rcases unlinkOlder_cases hstep with ⟨rfl, -⟩ | ⟨_, hfile, -, hleaf, rfl⟩
            · exact hdir
            · refine stat_remove_of_ne hdir ?_ ?_
              · rintro rfl
                exact hbefore d hmem List.prefix_rfl
              · rintro rfl
                exact hbefore _ hmem (List.dropLast_prefix p)

end Sweeps

/-! ## Removing empty directories -/

def Occupied (t : FileTree α) (p : List α) : Prop :=
  ∃ q mtime, p <+: q ∧ t.fileTime q = some mtime

/-- Above a node there are only directories. -/
theorem isDir_of_inside {t : FileTree α} {p q : List α} (hq : q ∈ t.paths) (hp : p ≠ [])
    (hpre : p <+: q) (hne : p ≠ q) : t.isDir p = true := by
  induction q using List.reverseRecOn with
  | nil => exact absurd (List.prefix_nil.mp hpre) hp
  | append_singleton q name ih =>
      rcases List.prefix_concat_iff.mp hpre with heq | hfront
      · exact absurd heq hne
      · have hqne : q ≠ [] := fun hnil => hp (List.prefix_nil.mp (hnil ▸ hfront))
        have hdir := isDir_of_child hq hqne
        by_cases hpq : p = q
        · rwa [hpq]
        · exact ih (mem_paths_iff.mpr (.inl hdir)) hfront hpq

/-- Towards a file below a directory there is an entry of the directory. -/
theorem exists_entry_of_occupied {t : FileTree α} {p : List α} (hdir : t.isDir p = true)
    (h : Occupied t p) :
    ∃ name, Occupied t (p ++ [name]) ∧
      ((∃ mtime, t.fileTime (p ++ [name]) = some mtime) ∨ t.isDir (p ++ [name]) = true) := by
  obtain ⟨q, mtime, ⟨rest, rfl⟩, hfile⟩ := h
  cases rest with
  | nil =>
      rw [List.append_nil] at hfile
      rw [isDir_eq_false_of_file hfile] at hdir
      cases hdir
  | cons name rest =>
      have hpre : p ++ [name] <+: p ++ name :: rest := ⟨rest, by simp⟩
      refine ⟨name, ⟨_, mtime, hpre, hfile⟩, ?_⟩
      by_cases heq : p ++ [name] = p ++ name :: rest
      · exact .inl ⟨mtime, heq ▸ hfile⟩
      · exact .inr (isDir_of_inside (mem_paths_iff.mpr (.inr ⟨mtime, hfile⟩)) (by simp)
          hpre heq)

/-- The empty directories among `done` have been removed from `t₀`. -/
structure Pruned (t₀ : FileTree α) (visited : List (List α)) (t : FileTree α) : Prop where
  files : ∀ q, t.fileTime q = t₀.fileTime q
  dirs : ∀ q, t.isDir q = true ↔ t₀.isDir q = true ∧ (q ∈ visited → Occupied t₀ q)

section Prune

variable {refuses : List α → Bool} {now : List α → Int} {t₀ t t' : FileTree α}
  {visited : List (List α)} {p : List α}

theorem Pruned.occupied_iff (h : Pruned t₀ visited t) (q : List α) :
    Occupied t q ↔ Occupied t₀ q := by
  simp only [Occupied, h.files]

/-- Where everything below `p` was visited, `p` has entries if a file is below it. -/
theorem Pruned.hasEntries_iff (h : Pruned t₀ visited t)
    (hbelow : ∀ name, p ++ [name] ∈ t₀.paths → p ++ [name] ∈ visited)
    (hdir : t.isDir p = true) : t.hasEntries p = true ↔ Occupied t₀ p := by
  rw [FileTree.hasEntries_iff]
  constructor
  · rintro ⟨name, hname⟩
    have hpre : p <+: p ++ [name] := List.prefix_append p [name]
    rcases mem_paths_iff.mp hname with hchild | ⟨mtime, hfile⟩
    · obtain ⟨hchild₀, hoccupied⟩ := (h.dirs _).mp hchild
      obtain ⟨q, mtime, hq, hfile⟩ := hoccupied (hbelow name (mem_paths_iff.mpr (.inl hchild₀)))
      exact ⟨q, mtime, hpre.trans hq, hfile⟩
    · exact ⟨_, mtime, hpre, h.files _ ▸ hfile⟩
  · intro hoccupied
    have hdir₀ := ((h.dirs p).mp hdir).1
    obtain ⟨name, hchild, hfile | hsub⟩ := exists_entry_of_occupied hdir₀ hoccupied
    · obtain ⟨mtime, hmtime⟩ := hfile
      exact ⟨name, mem_paths_iff.mpr (.inr ⟨mtime, (h.files _).trans hmtime⟩)⟩
    · exact ⟨name, mem_paths_iff.mpr (.inl ((h.dirs _).mpr ⟨hsub, fun _ => hchild⟩))⟩

theorem Pruned.step (h : Pruned t₀ visited t) (hnew : p ∉ visited)
    (hbelow : ∀ name, p ++ [name] ∈ t₀.paths → p ++ [name] ∈ visited)
    (hstep : rmdirEmpty refuses now p t = some t') : Pruned t₀ (visited ++ [p]) t' := by
  refine ⟨fun q => (fileTime_rmdirEmpty hstep q).trans (h.files q), fun q => ?_⟩
  rw [List.mem_append, List.mem_singleton]
  rcases rmdirEmpty_cases hstep with ⟨rfl, hkept⟩ | ⟨hdir, hempty, hleaf, rfl⟩
  · by_cases hq : q = p
    · subst hq
      constructor
      · intro hdir
        have hentries : t'.hasEntries q = true := by
          rw [← Bool.not_eq_false]
          exact fun hempty => hkept ⟨hdir, hempty⟩
        exact ⟨((h.dirs q).mp hdir).1, fun _ => (h.hasEntries_iff hbelow hdir).mp hentries⟩
      · rintro ⟨hdir, -⟩
        exact (h.dirs q).mpr ⟨hdir, fun hmem => absurd hmem hnew⟩
    · rw [h.dirs q]
      simp [hq]
  · have hfree : ¬ Occupied t₀ p := by
      rw [← h.hasEntries_iff hbelow hdir, hempty]
      exact Bool.false_ne_true
    rw [isDir_remove, Bool.and_eq_true, h.dirs q, decide_eq_true_eq]
    by_cases hq : q = p
    · subst hq
      simp [hfree]
    · simp [hq]

/-- A completed sweep that visits what is below a directory before it leaves the directories
with a file below them, and no others. -/
theorem pruned_sweep {rest : List (List α)} (h : Pruned t₀ visited t)
    (hnodup : (visited ++ rest).Nodup) (hall : ∀ q ∈ t₀.paths, q ∈ visited ++ rest)
    (hlisted : rest.Pairwise fun p q => ¬ p <+: q)
    (hcompleted : (sweep (rmdirEmpty refuses now) rest t).completed = true) :
    Pruned t₀ (visited ++ rest) (sweep (rmdirEmpty refuses now) rest t).tree := by
  induction rest generalizing visited t with
  | nil => simpa [sweep] using h
  | cons p rest ih =>
      obtain ⟨hafter, hrest⟩ := List.pairwise_cons.mp hlisted
      rw [sweep] at hcompleted ⊢
      cases hstep : rmdirEmpty refuses now p t with
      | none => simp [hstep] at hcompleted
      | some t' =>
          simp only [hstep] at hcompleted ⊢
          have hnew : p ∉ visited := fun hmem =>
            (List.nodup_append.mp hnodup).2.2 p hmem p List.mem_cons_self rfl
          have hbelow : ∀ name, p ++ [name] ∈ t₀.paths → p ++ [name] ∈ visited := by
            intro name hname
            rcases List.mem_append.mp (hall _ hname) with hmem | hmem
            · exact hmem
            · rcases List.mem_cons.mp hmem with heq | htail
              · simp at heq
              · exact absurd (List.prefix_append p [name]) (hafter _ htail)
          have happend : visited ++ p :: rest = (visited ++ [p]) ++ rest := by simp
          rw [happend] at hnodup hall ⊢
          exact ih (h.step hnew hbelow hstep) hnodup hall hrest hcompleted

theorem isDir_of_isDir_sweep {ps : List (List α)} {q : List α}
    (h : (sweep (rmdirEmpty refuses now) ps t).tree.isDir q = true) : t.isDir q = true := by
  refine sweep_invariant (P := fun t' => t'.isDir q = true → t.isDir q = true) ?_ id h
  intro p _ t₁ t₂ hbefore hstep hdir
  rcases rmdirEmpty_cases hstep with ⟨rfl, -⟩ | ⟨-, -, hleaf, rfl⟩
  · exact hbefore hdir
  · rw [isDir_remove, Bool.and_eq_true] at hdir
    exact hbefore hdir.1

theorem fileTime_sweep_rmdirEmpty (ps : List (List α)) (q : List α) :
    (sweep (rmdirEmpty refuses now) ps t).tree.fileTime q = t.fileTime q := by
  refine sweep_invariant (P := fun t' => t'.fileTime q = t.fileTime q) ?_ rfl
  intro p _ t₁ t₂ hsame hstep
  rw [fileTime_rmdirEmpty hstep, hsame]

theorem completed_sweep_rmdirEmpty (hallowed : ∀ p, refuses p = false) (ps : List (List α))
    (t : FileTree α) : (sweep (rmdirEmpty refuses now) ps t).completed = true := by
  induction ps generalizing t with
  | nil => rfl
  | cons p ps ih =>
      have hsome : (rmdirEmpty refuses now p t).isSome := isSome_rmdirEmpty (hallowed p) t
      obtain ⟨t', ht'⟩ := Option.isSome_iff_exists.mp hsome
      rw [sweep, ht']
      exact ih t'

end Prune

/-- `sorted(paths, reverse=True)`: paths are compared component by component. -/
def reverseSorted {β : Type} [LinearOrder β] (ps : List (List β)) : List (List β) :=
  ps.insertionSort (· ≥ ·)

theorem perm_reverseSorted {β : Type} [LinearOrder β] (ps : List (List β)) :
    (reverseSorted ps).Perm ps :=
  List.perm_insertionSort _ ps

/-- What is below a directory comes before it. -/
theorem pairwise_reverseSorted {β : Type} [LinearOrder β] {ps : List (List β)} (h : ps.Nodup) :
    (reverseSorted ps).Pairwise fun p q => ¬ p <+: q := by
  have hsorted : (reverseSorted ps).Pairwise (· ≥ ·) := List.pairwise_insertionSort _ ps
  have hnodup : (reverseSorted ps).Nodup := (perm_reverseSorted ps).nodup_iff.mpr h
  refine (hsorted.and hnodup).imp ?_
  rintro p q ⟨hge, hne⟩ hpre
  exact hne (le_antisymm (le_of_not_gt hpre.le) hge)

/-! ## Writing -/

/-- The directory in which `p` would be is there; the root always is. -/
def hasParent (t : FileTree α) (p : List α) : Bool := p.dropLast = [] || t.isDir p.dropLast

def add (t : FileTree α) (now : Int) (p : List α) (node : Node)
    (h : p ≠ [] ∧ t.stat p = none ∧ t.hasParent p = true) : FileTree α where
  nodes := touchDir now p.dropLast t.nodes ++ [(p, node)]
  listed := by
    refine List.pairwise_append.mpr ⟨List.pairwise_map.mpr t.listed, by simp, ?_⟩
    intro a ha b hb hpre
    rw [List.mem_singleton.mp hb] at hpre
    obtain ⟨e, he, rfl⟩ := List.mem_map.mp ha
    have hmem : e.1 ∈ t.paths := List.mem_map_of_mem he
    have hnew : p ∉ t.paths := fun hp => by
      rw [paths, mem_keys_iff, ← stat, h.2.1] at hp
      cases hp
    by_cases heq : p = e.1
    · exact hnew (heq ▸ hmem)
    · exact hnew (mem_paths_iff.mpr (.inl (isDir_of_inside hmem h.1 hpre heq)))
  closed := by
    intro q name node' hmem hq
    have hdir : ∃ mtime, (q, .dir mtime) ∈ t.nodes := by
      rcases List.mem_append.mp hmem with hold | hnew
      · obtain ⟨old, hmem', -⟩ := mem_touchDir.mp hold
        exact t.closed q name old hmem' hq
      · obtain ⟨hpath, -⟩ := Prod.mk.inj (List.mem_singleton.mp hnew)
        have hparent := h.2.2
        rw [← hpath, hasParent, List.dropLast_concat] at hparent
        simp only [hq, decide_false, Bool.false_or] at hparent
        obtain ⟨mtime, hmtime⟩ := isDir_iff.mp hparent
        exact ⟨mtime, stat_eq_some_iff.mp hmtime⟩
    obtain ⟨mtime, hmtime⟩ := hdir
    obtain ⟨mtime', hmtime'⟩ := dir_mem_touchDir hmtime
    exact ⟨mtime', List.mem_append_left _ hmtime'⟩
  rooted := by
    intro node' hmem
    rcases List.mem_append.mp hmem with hold | hnew
    · obtain ⟨old, hmem', -⟩ := mem_touchDir.mp hold
      exact t.rooted old hmem'
    · obtain ⟨hpath, -⟩ := Prod.mk.inj (List.mem_singleton.mp hnew)
      exact h.1 hpath.symm

def overwrite (t : FileTree α) (now : Int) (p : List α) (h : t.isDir p = false) : FileTree α where
  nodes := t.nodes.map fun e => (e.1, if e.1 = p then .file now else e.2)
  listed := List.pairwise_map.mpr t.listed
  closed := by
    intro q name node hmem hq
    obtain ⟨e, he, heq⟩ := List.mem_map.mp hmem
    obtain ⟨hpath, -⟩ := Prod.mk.inj heq
    obtain ⟨mtime, hdir⟩ := t.closed q name e.2 (hpath ▸ he) hq
    have hne : q ≠ p := by
      rintro rfl
      rw [isDir_iff.mpr ⟨mtime, stat_eq_some_iff.mpr hdir⟩] at h
      cases h
    exact ⟨mtime, List.mem_map.mpr ⟨_, hdir, by simp [hne]⟩⟩
  rooted := by
    intro node hmem
    obtain ⟨e, he, heq⟩ := List.mem_map.mp hmem
    obtain ⟨hpath, -⟩ := Prod.mk.inj heq
    exact t.rooted e.2 (hpath ▸ he)

/-- `p.mkdir(exist_ok=True)` at the time `now`; `none` is an `OSError`. -/
def mkdir (now : Int) (p : List α) (t : FileTree α) : Option (FileTree α) :=
  if t.isDir p then some t
  else if h : p ≠ [] ∧ t.stat p = none ∧ t.hasParent p = true then some (t.add now p (.dir now) h)
  else none

/-- `p.write_text(…)` at the time `now`. -/
def writeText (now : Int) (p : List α) (t : FileTree α) : Option (FileTree α) :=
  if hdir : t.isDir p = true then none
  else if t.stat p ≠ none then some (t.overwrite now p (by simpa using hdir))
  else if h : p ≠ [] ∧ t.stat p = none ∧ t.hasParent p = true then
    some (t.add now p (.file now) h)
  else none

/-- A file can be at `p`: there is no directory, but the one around it. -/
def Writable (t : FileTree α) (p : List α) : Prop :=
  p ≠ [] ∧ t.hasParent p = true ∧ t.isDir p = false

instance (t : FileTree α) (p : List α) : Decidable (t.Writable p) :=
  inferInstanceAs (Decidable (_ ∧ _))

section Writing

variable {t t' : FileTree α} {now : Int} {p : List α}

theorem hasParent_of_mem_paths (h : p ∈ t.paths) : t.hasParent p = true := by
  have hp := ne_nil_of_mem_paths h
  rw [← List.dropLast_append_getLast hp] at h
  rw [hasParent, Bool.or_eq_true, decide_eq_true_eq]
  by_cases hroot : p.dropLast = []
  · exact .inl hroot
  · exact .inr (isDir_of_child h hroot)

theorem isSome_writeText_iff : (writeText now p t).isSome = true ↔ t.Writable p := by
  have hthere : t.stat p ≠ none → p ≠ [] ∧ t.hasParent p = true := by
    intro hnode
    have hmem : p ∈ t.paths := by
      rw [paths, mem_keys_iff, ← stat]
      exact Option.isSome_iff_ne_none.mpr hnode
    exact ⟨ne_nil_of_mem_paths hmem, hasParent_of_mem_paths hmem⟩
  unfold writeText Writable
  by_cases hdir : t.isDir p = true
  · simp [hdir]
  · by_cases hnode : t.stat p = none
    · simp [hdir, hnode]
    · simp [hdir, hnode, hthere hnode]

theorem stat_add_eq_some_iff {node : Node} {h : p ≠ [] ∧ t.stat p = none ∧ t.hasParent p = true}
    {q : List α} {node' : Node} :
    (t.add now p node h).stat q = some node' ↔
      (q = p ∧ node' = node) ∨
        ∃ old, t.stat q = some old ∧ node' = if q = p.dropLast then old.touched now else old := by
  simp only [stat_eq_some_iff, add, List.mem_append, mem_touchDir, List.mem_singleton,
    Prod.mk.injEq]
  exact or_comm

theorem stat_overwrite_eq_some_iff {h : t.isDir p = false} {q : List α} {node : Node} :
    (t.overwrite now p h).stat q = some node ↔
      ∃ old, t.stat q = some old ∧ node = if q = p then .file now else old := by
  simp only [stat_eq_some_iff, overwrite, List.mem_map]
  constructor
  · rintro ⟨e, he, heq⟩
    obtain ⟨rfl, rfl⟩ := Prod.mk.inj heq
    exact ⟨e.2, he, rfl⟩
  · rintro ⟨old, hold, rfl⟩
    exact ⟨(q, old), hold, rfl⟩

theorem fileTime_add_dir {mtime : Int} {h : p ≠ [] ∧ t.stat p = none ∧ t.hasParent p = true}
    (q : List α) : (t.add now p (.dir mtime) h).fileTime q = t.fileTime q := by
  refine Option.ext fun mtime => ?_
  simp [fileTime_eq_some_iff, stat_add_eq_some_iff, file_eq_touched_iff]

theorem fileTime_add_file {mtime : Int} {h : p ≠ [] ∧ t.stat p = none ∧ t.hasParent p = true}
    (q : List α) :
    (t.add now p (.file mtime) h).fileTime q = if q = p then some mtime else t.fileTime q := by
  refine Option.ext fun mtime' => ?_
  simp only [fileTime_eq_some_iff, stat_add_eq_some_iff, file_eq_touched_iff]
  by_cases hq : q = p
  · subst hq
    simp [h.2.1, eq_comm]
  · simp [hq, fileTime_eq_some_iff]

theorem fileTime_overwrite {h : t.isDir p = false} (hthere : t.stat p ≠ none) (q : List α) :
    (t.overwrite now p h).fileTime q = if q = p then some now else t.fileTime q := by
  refine Option.ext fun mtime => ?_
  simp only [fileTime_eq_some_iff, stat_overwrite_eq_some_iff]
  by_cases hq : q = p
  · subst hq
    obtain ⟨old, hold⟩ := Option.ne_none_iff_exists'.mp hthere
    simp [hold, eq_comm]
  · simp [hq, fileTime_eq_some_iff]

theorem mkdir_cases (h : mkdir now p t = some t') :
    t' = t ∨ ∃ hnew, t' = t.add now p (.dir now) hnew := by
  unfold mkdir at h
  split_ifs at h with hdir hnew
  · exact .inl (Option.some.inj h).symm
  · exact .inr ⟨hnew, (Option.some.inj h).symm⟩

theorem writeText_cases (h : writeText now p t = some t') :
    (t.stat p ≠ none ∧ ∃ hfile, t' = t.overwrite now p hfile) ∨
      ∃ hnew, t' = t.add now p (.file now) hnew := by
  unfold writeText at h
  split_ifs at h with hdir hthere hnew
  · exact .inl ⟨hthere, _, (Option.some.inj h).symm⟩
  · exact .inr ⟨hnew, (Option.some.inj h).symm⟩

theorem fileTime_mkdir (h : mkdir now p t = some t') (q : List α) :
    t'.fileTime q = t.fileTime q := by
  rcases mkdir_cases h with rfl | ⟨hnew, rfl⟩
  · rfl
  · exact fileTime_add_dir q

theorem fileTime_writeText (h : writeText now p t = some t') (q : List α) :
    t'.fileTime q = if q = p then some now else t.fileTime q := by
  rcases writeText_cases h with ⟨hthere, hfile, rfl⟩ | ⟨hnew, rfl⟩
  · exact fileTime_overwrite hthere q
  · exact fileTime_add_file q

theorem isDir_add {node : Node} {h : p ≠ [] ∧ t.stat p = none ∧ t.hasParent p = true}
    {d : List α} (hd : t.isDir d = true) : (t.add now p node h).isDir d = true := by
  obtain ⟨mtime, hmtime⟩ := isDir_iff.mp hd
  have htouched : ∃ mtime', (d, Node.dir mtime') ∈ touchDir now p.dropLast t.nodes :=
    dir_mem_touchDir (stat_eq_some_iff.mp hmtime)
  obtain ⟨mtime', hmem⟩ := htouched
  exact isDir_iff.mpr ⟨mtime', stat_eq_some_iff.mpr (List.mem_append_left _ hmem)⟩

theorem isDir_mkdir (h : mkdir now p t = some t') {d : List α} (hd : t.isDir d = true) :
    t'.isDir d = true := by
  rcases mkdir_cases h with rfl | ⟨hnew, rfl⟩
  · exact hd
  · exact isDir_add hd

theorem isDir_writeText (h : writeText now p t = some t') {d : List α} (hd : t.isDir d = true) :
    t'.isDir d = true := by
  rcases writeText_cases h with ⟨-, hfile, rfl⟩ | ⟨hnew, rfl⟩
  · obtain ⟨mtime, hmtime⟩ := isDir_iff.mp hd
    refine isDir_iff.mpr ⟨mtime, stat_overwrite_eq_some_iff.mpr ⟨_, hmtime, ?_⟩⟩
    rw [if_neg]
    rintro rfl
    rw [hd] at hfile
    cases hfile
  · exact isDir_add hd

/-- Elsewhere nothing changes a directory. -/
theorem stat_add_of_ne {node : Node} {h : p ≠ [] ∧ t.stat p = none ∧ t.hasParent p = true}
    {d : List α} {mtime : Int} (hd : t.stat d = some (.dir mtime)) (hparent : d ≠ p.dropLast) :
    (t.add now p node h).stat d = some (.dir mtime) := by
  refine stat_add_eq_some_iff.mpr (.inr ⟨_, hd, ?_⟩)
  rw [if_neg hparent]

theorem stat_mkdir_of_ne (h : mkdir now p t = some t') {d : List α} {mtime : Int}
    (hd : t.stat d = some (.dir mtime)) (hparent : d ≠ p.dropLast) :
    t'.stat d = some (.dir mtime) := by
  rcases mkdir_cases h with rfl | ⟨hnew, rfl⟩
  · exact hd
  · exact stat_add_of_ne hd hparent

theorem stat_writeText_of_ne (h : writeText now p t = some t') {d : List α} {mtime : Int}
    (hd : t.stat d = some (.dir mtime)) (hparent : d ≠ p.dropLast) :
    t'.stat d = some (.dir mtime) := by
  rcases writeText_cases h with ⟨-, hfile, rfl⟩ | ⟨hnew, rfl⟩
  · refine stat_overwrite_eq_some_iff.mpr ⟨_, hd, ?_⟩
    rw [if_neg]
    rintro rfl
    rw [isDir_iff.mpr ⟨_, hd⟩] at hfile
    cases hfile
  · exact stat_add_of_ne hd hparent

end Writing

end FileTree

end BackendProdReady.Lib.FileTrees
