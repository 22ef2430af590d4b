import BackendProdReady.Lib.Runs
import BackendProdReady.Lib.TwoPhaseLocking

/-!
# Runs of `create_admin.py`

Each run of the script is one transaction at READ COMMITTED: a SELECT sees the committed rows
and the run's own, an INSERT or UPDATE waits while another transaction holds the key, and an
INSERT fails where the key is taken.  Roles have unique codes and users unique e-mail addresses.
-/

namespace BackendProdReady.Scripts.CreateAdmin

open BackendProdReady.Lib.Runs
open BackendProdReady.Lib.TwoPhaseLocking
open BackendProdReady.Lib.TwoPhaseLocking.Store

/-! ## Rows -/

structure RoleModel where
  id : String
  name : String

/-- `others` are the columns that the script does not name. -/
structure UserModel (O : Type) where
  id : String
  roleId : String
  passwordHash : Option String
  isActive : Bool
  isVerified : Bool
  others : O

inductive Key
  | role (code : String)
  | user (email : String)
deriving DecidableEq

abbrev Row (O : Type) := Option (RoleModel ⊕ UserModel O)

variable {O : Type}

def asRole (row : Row O) : Option RoleModel := row.bind Sum.getLeft?

def asUser (row : Row O) : Option (UserModel O) := row.bind Sum.getRight?

/-! ## `main` and `create_admin` -/

/-- `str.lower`, `os.getenv("ADMIN_EMAIL", "")`, and `bcrypt.hashpw` of a password with a salt,
`none` where it raises; the other columns of a new row and of a changed one. -/
structure Environment (O σ : Type) where
  lower : String → String
  adminEmail : String
  hashpw : String → σ → Option String
  defaults : O
  onUpdate : O → O

variable {σ τ : Type}

/-- `main` goes on to `create_admin`. -/
def accepts (env : Environment O σ) (email password : String) : Bool :=
  email ≠ "" && password ≠ "" && !decide (password.length < 8) &&
    env.lower email ≠ env.lower env.adminEmail

structure Arguments (env : Environment O σ) where
  email : String
  password : String
  accepted : accepts env email password = true

def Arguments.key {env : Environment O σ} (arguments : Arguments env) : Key :=
  .user (env.lower arguments.email)

/-- Where a run stands: what it has read, and what it does next. -/
inductive Phase (O : Type)
  | start
  | noRole
  | hasRole (adminRole : RoleModel)
  | hashed (adminRole : RoleModel) (passwordHash : String)
  | noUser (adminRole : RoleModel) (passwordHash : String)
  | hasUser (adminRole : RoleModel) (passwordHash : String) (user : UserModel O)
  | written
  | done
  | failed

def Phase.isOver : Phase O → Bool
  | .done | .failed => true
  | _ => false

inductive Action (σ : Type)
  | selectRole
  | insertRole (id : String)
  | hashPassword (salt : σ)
  | selectUser
  | updateUser
  | insertUser (id : String)
  /-- COMMIT; the reply to it may be lost. -/
  | commit (replied : Bool)
  /-- A statement or COMMIT fails, or the process ends. -/
  | fail

structure World (τ O : Type) where
  store : Store τ Key (Row O)
  phase : τ → Phase O

section Source

variable [DecidableEq τ]

namespace World

def goto (w : World τ O) (t : τ) (phase : Phase O) : World τ O :=
  { w with phase := Function.update w.phase t phase }

/-- An exception leaves the session, which rolls back. -/
def raise (w : World τ O) (t : τ) : World τ O :=
  ⟨w.store.rollback t, Function.update w.phase t .failed⟩

def Free (w : World τ O) (t : τ) (k : Key) : Prop :=
  w.store.lock k = none ∨ w.store.lock k = some t

instance (w : World τ O) (t : τ) (k : Key) : Decidable (w.Free t k) :=
  inferInstanceAs (Decidable (_ ∨ _))

def write (w : World τ O) (t : τ) (k : Key) (f : Row O → Row O) (phase : Phase O) : World τ O :=
  ⟨w.store.modify t k f, Function.update w.phase t phase⟩

end World

def insertRow (w : World τ O) (t : τ) (k : Key) (row : RoleModel ⊕ UserModel O)
    (phase : Phase O) : Option (World τ O) :=
  if w.Free t k then
    some (if (w.store.view t k).isSome then w.raise t else w.write t k (fun _ => some row) phase)
  else none

/-- `.values(role_id=…, password_hash=…, is_active=True)`. -/
def UserModel.promote (env : Environment O σ) (user : UserModel O) (adminRole : RoleModel)
    (passwordHash : String) : UserModel O :=
  { user with
    roleId := adminRole.id
    passwordHash := some passwordHash
    isActive := true
    others := env.onUpdate user.others }

/-- `update(UserModel).where(UserModel.id == user.id)`, for the row of one key. -/
def promoteRow (env : Environment O σ) (adminRole : RoleModel) (passwordHash : String)
    (user : UserModel O) : Row O → Row O
  | some (.inr found) =>
      if found.id = user.id then some (.inr (found.promote env adminRole passwordHash))
      else some (.inr found)
  | row => row

/-- `UserModel(email=…, …)`. -/
def newUser (env : Environment O σ) (id : String) (adminRole : RoleModel)
    (passwordHash : String) : UserModel O where
  id := id
  roleId := adminRole.id
  passwordHash := some passwordHash
  isActive := true
  isVerified := true
  others := env.defaults

variable (env : Environment O σ) (args : τ → Arguments env)

def step (w : World τ O) (event : τ × Action σ) : Option (World τ O) :=
  let t := event.1
  match w.phase t, event.2 with
  | .start, .selectRole =>
      some (w.goto t
        (match asRole (w.store.view t (.role "admin")) with
          | some adminRole => .hasRole adminRole
          | none => .noRole))
  | .noRole, .insertRole id =>
      insertRow w t (.role "admin") (.inl ⟨id, "Admin"⟩) (.hasRole ⟨id, "Admin"⟩)
  | .hasRole adminRole, .hashPassword salt =>
      some (match env.hashpw (args t).password salt with
        | some passwordHash => w.goto t (.hashed adminRole passwordHash)
        | none => w.raise t)
  | .hashed adminRole passwordHash, .selectUser =>
      some (w.goto t
        (match asUser (w.store.view t (args t).key) with
          | some user => .hasUser adminRole passwordHash user
          | none => .noUser adminRole passwordHash))
  | .hasUser adminRole passwordHash user, .updateUser =>
      if w.Free t (args t).key then
        some (w.write t (args t).key (promoteRow env adminRole passwordHash user) .written)
      else none
  | .noUser adminRole passwordHash, .insertUser id =>
      insertRow w t (args t).key (.inr (newUser env id adminRole passwordHash)) .written
  | .written, .commit replied =>
      some ⟨w.store.commit t, Function.update w.phase t (if replied then .done else .failed)⟩
  | .done, _ => none
  | .failed, _ => none
  | _, .fail => some (w.raise t)
  | _, _ => none

def Step : World τ O → τ × Action σ → World τ O → Prop := StepOf (step env args)

def start (rows : Key → Row O) : World τ O := ⟨.start rows, fun _ => .start⟩

end Source

theorem asRole_eq_some_iff {row : Row O} {r : RoleModel} :
    asRole row = some r ↔ row = some (.inl r) := by
  rcases row with _ | r' | user <;> simp [asRole]

theorem asUser_eq_some_iff {row : Row O} {user : UserModel O} :
    asUser row = some user ↔ row = some (.inr user) := by
  rcases row with _ | r | user' <;> simp [asUser]

/-! ## Where a run stands -/

section Standing

variable [DecidableEq τ] (env : Environment O σ) (args : τ → Arguments env)

structure Promoted (arguments : Arguments env) (adminRole : RoleModel) (user : UserModel O) :
    Prop where
  roleId : user.roleId = adminRole.id
  isActive : user.isActive = true
  passwordHash : ∃ salt passwordHash, env.hashpw arguments.password salt = some passwordHash ∧
    user.passwordHash = some passwordHash

/-- The user is the one of before, or a new one. -/
def Follows (before : Option (UserModel O)) (user : UserModel O) : Prop :=
  match before with
  | some old => user.id = old.id ∧ user.isVerified = old.isVerified
  | none => user.isVerified = true

theorem Follows.trans {before : Option (UserModel O)} {user user' : UserModel O}
    (h : Follows before user) (h' : Follows (some user) user') : Follows before user' := by
  cases before with
  | none => exact h'.2.trans h
  | some old => exact ⟨h'.1.trans h.1, h'.2.trans h.2⟩

structure InRole (s : Store τ Key (Row O)) (t : τ) (adminRole : RoleModel) : Prop where
  locks : ∀ k, s.lock k = some t → k = .role "admin"
  role : asRole (s.view t (.role "admin")) = some adminRole

structure Written (s : Store τ Key (Row O)) (t : τ) : Prop where
  locks : ∀ k, s.lock k = some t → k = .role "admin" ∨ k = (args t).key
  held : s.lock (args t).key = some t
  promoted : ∃ adminRole user, asRole (s.view t (.role "admin")) = some adminRole ∧
    asUser (s.view t (args t).key) = some user ∧ Promoted env (args t) adminRole user ∧
      Follows (asUser (s.rows (args t).key)) user

def Standing (s : Store τ Key (Row O)) (t : τ) : Phase O → Prop
  | .start | .noRole | .done | .failed => ∀ k, s.lock k ≠ some t
  | .hasRole adminRole => InRole s t adminRole
  | .hashed adminRole passwordHash | .noUser adminRole passwordHash =>
      InRole s t adminRole ∧ ∃ salt, env.hashpw (args t).password salt = some passwordHash
  | .hasUser adminRole passwordHash user =>
      InRole s t adminRole ∧ (∃ salt, env.hashpw (args t).password salt = some passwordHash) ∧
        ∃ found, asUser (s.rows (args t).key) = some found ∧ found.id = user.id
  | .written => Written env args s t

variable {env args} {s s' : Store τ Key (Row O)} {t u : τ} {phase : Phase O}

theorem Standing.locks (h : Standing env args s t phase) {k : Key} (hk : s.lock k = some t) :
    k = .role "admin" ∨ k = (args t).key := by
  cases phase with
  | start => exact absurd hk (h k)
  | noRole => exact absurd hk (h k)
  | done => exact absurd hk (h k)
  | failed => exact absurd hk (h k)
  | hasRole adminRole => exact .inl (InRole.locks h k hk)
  | hashed adminRole passwordHash => exact .inl (h.1.locks k hk)
  | noUser adminRole passwordHash => exact .inl (h.1.locks k hk)
  | hasUser adminRole passwordHash user => exact .inl (h.1.locks k hk)
  | written => exact Written.locks h k hk

structure Unseen (s s' : Store τ Key (Row O)) (u : τ) : Prop where
  rows : s'.rows = s.rows
  lock : ∀ k, s'.lock k = some u ↔ s.lock k = some u
  view : s'.view u = s.view u

theorem InRole.of_unseen {adminRole : RoleModel} (h : InRole s u adminRole)
    (hunseen : Unseen s s' u) : InRole s' u adminRole where
  locks k hk := h.locks k ((hunseen.lock k).mp hk)
  role := by rw [hunseen.view, h.role]

theorem Standing.of_unseen (h : Standing env args s u phase) (hunseen : Unseen s s' u) :
    Standing env args s' u phase := by
  have hnone : (∀ k, s.lock k ≠ some u) → ∀ k, s'.lock k ≠ some u :=
    fun hlock k hk => hlock k ((hunseen.lock k).mp hk)
  cases phase with
  | start => exact hnone h
  | noRole => exact hnone h
  | done => exact hnone h
  | failed => exact hnone h
  | hasRole adminRole => exact InRole.of_unseen h hunseen
  | hashed adminRole passwordHash => exact ⟨h.1.of_unseen hunseen, h.2⟩
  | noUser adminRole passwordHash => exact ⟨h.1.of_unseen hunseen, h.2⟩
  | hasUser adminRole passwordHash user =>
      refine ⟨h.1.of_unseen hunseen, h.2.1, ?_⟩
      rw [hunseen.rows]
      exact h.2.2
  | written =>
      have hwritten : Written env args s u := h
      refine ⟨fun k hk => hwritten.locks k ((hunseen.lock k).mp hk),
        (hunseen.lock _).mpr hwritten.held, ?_⟩
      rw [hunseen.rows, hunseen.view]
      exact hwritten.promoted

theorem unseen_rollback (s : Store τ Key (Row O)) (hne : u ≠ t) : Unseen s (s.rollback t) u where
  rows := rfl
  lock _ := unlock_eq_some.trans (and_iff_left hne)
  view := view_rollback_of_ne hne

theorem unseen_write {k : Key} {f : Row O → Row O} (hfree : s.lock k = none ∨ s.lock k = some t)
    (hne : u ≠ t) : Unseen s (s.modify t k f) u where
  rows := rfl
  lock := lock_modify_of_ne hfree hne
  view := view_modify_of_ne hfree hne

end Standing

/-! ## The invariant -/

section Invariant

variable [DecidableEq τ] (env : Environment O σ) (args : τ → Arguments env) (init : Key → Row O)

def World.committed (w : World τ O) : List τ := w.store.committed.map Prod.fst

/-- The last run that committed for an e-mail address. -/
def lastRun (committed : List τ) (email : String) : Option τ :=
  (committed.filter fun t => (args t).key = .user email).getLast?

/-- The user with an e-mail address is as the last run left it. -/
def UserKept (committed : List τ) (rows : Key → Row O) (email : String) : Prop :=
  match lastRun env args committed email with
  | none => rows (.user email) = init (.user email)
  | some t => ∃ adminRole user, rows (.role "admin") = some (.inl adminRole) ∧
      rows (.user email) = some (.inr user) ∧ Promoted env (args t) adminRole user ∧
        Follows (asUser (init (.user email))) user

/-- The role is the one of before, or one that a run inserted. -/
def RoleKept (row row' : Row O) : Prop :=
  row' = row ∨ row = none ∧ ∃ adminRole, row' = some (.inl adminRole) ∧ adminRole.name = "Admin"

structure Inv (w : World τ O) : Prop where
  standing : ∀ t, Standing env args w.store t (w.phase t)
  inserted : ∀ t, w.store.lock (.role "admin") = some t →
    w.store.rows (.role "admin") = none ∧
      ∃ adminRole, w.store.view t (.role "admin") = some (.inl adminRole) ∧
        adminRole.name = "Admin"
  role : RoleKept (init (.role "admin")) (w.store.rows (.role "admin"))
  otherRoles : ∀ code, code ≠ "admin" → w.store.rows (.role code) = init (.role code)
  users : ∀ email, UserKept env args init w.committed w.store.rows email
  ended : ∀ t ∈ w.committed, (w.phase t).isOver = true
  done : ∀ t, w.phase t = .done → t ∈ w.committed

theorem inv_start : Inv env args init (start init) where
  standing _ _ h := by cases h
  inserted _ h := by cases h
  role := .inl rfl
  otherRoles _ _ := rfl
  users _ := rfl
  ended _ h := by cases h
  done _ h := by cases h

variable {env args init} {w : World τ O} {t : τ} {s' : Store τ Key (Row O)} {phase' : Phase O}

/-- A run goes on without a commit. -/
theorem Inv.move (h : Inv env args init w) (hrunning : (w.phase t).isOver = false)
    (hdone : phase' ≠ .done) (hrows : s'.rows = w.store.rows)
    (hcommitted : s'.committed = w.store.committed)
    (hunseen : ∀ u, u ≠ t → Unseen w.store s' u) (hstanding : Standing env args s' t phase')
    (hinserted : s'.lock (.role "admin") = some t →
      w.store.rows (.role "admin") = none ∧
        ∃ adminRole, s'.view t (.role "admin") = some (.inl adminRole) ∧
          adminRole.name = "Admin") :
    Inv env args init ⟨s', Function.update w.phase t phase'⟩ where
  standing u := by
    change Standing env args s' u (Function.update w.phase t phase' u)
    by_cases hu : u = t
    · rw [hu, Function.update_self]
      exact hstanding
    · rw [Function.update_of_ne hu]
      exact (h.standing u).of_unseen (hunseen u hu)
  inserted u hlock := by
    rw [hrows]
    by_cases hu : u = t
    · subst hu
      exact hinserted hlock
    · rw [(hunseen u hu).view]
      exact h.inserted u (((hunseen u hu).lock _).mp hlock)
  role := by
    rw [hrows]
    exact h.role
  otherRoles code hcode := by
    rw [hrows]
    exact h.otherRoles code hcode
  users email := by
    rw [World.committed, hcommitted, hrows]
    exact h.users email
  ended u hu := by
    change (Function.update w.phase t phase' u).isOver = true
    rw [World.committed, hcommitted] at hu
    have hended := h.ended u hu
    have hne : u ≠ t := by
      rintro rfl
      rw [hrunning] at hended
      cases hended
    rw [Function.update_of_ne hne]
    exact hended
  done u hu := by
    change Function.update w.phase t phase' u = .done at hu
    rw [World.committed, hcommitted]
    by_cases heq : u = t
    · rw [heq, Function.update_self] at hu
      exact absurd hu hdone
    · rw [Function.update_of_ne heq] at hu
      exact h.done u hu

theorem unseen_refl (s : Store τ Key (Row O)) (u : τ) : Unseen s s u := ⟨rfl, fun _ => .rfl, rfl⟩

theorem Inv.goto (h : Inv env args init w) (hrunning : (w.phase t).isOver = false)
    (hdone : phase' ≠ .done) (hstanding : Standing env args w.store t phase') :
    Inv env args init (w.goto t phase') :=
  h.move hrunning hdone rfl rfl (fun u _ => unseen_refl _ u) hstanding (h.inserted t)

theorem not_lock_rollback (s : Store τ Key (Row O)) (k : Key) :
    (s.rollback t).lock k ≠ some t := fun hlock => (unlock_eq_some.mp hlock).2 rfl

theorem Inv.raise (h : Inv env args init w) (hrunning : (w.phase t).isOver = false) :
    Inv env args init (w.raise t) :=
  h.move hrunning (by simp) rfl rfl (fun _ hu => unseen_rollback _ hu)
    (not_lock_rollback _) fun hlock => absurd hlock (not_lock_rollback _ _)

/-- A run that holds no key but that of its role sees the committed row of its user. -/
theorem view_key {adminRole : RoleModel} (h : InRole w.store t adminRole) :
    w.store.view t (args t).key = w.store.rows (args t).key := by
  refine view_of_not_lock fun hlock => ?_
  cases h.locks _ hlock

theorem Inv.insertRole (h : Inv env args init w) (hphase : w.phase t = .noRole) {id : String}
    {w' : World τ O}
    (hstep : insertRow w t (.role "admin") (.inl ⟨id, "Admin"⟩) (.hasRole ⟨id, "Admin"⟩) =
      some w') : Inv env args init w' := by
  have hrunning : (w.phase t).isOver = false := by rw [hphase]; rfl
  have hlocks : ∀ k, w.store.lock k ≠ some t := by
    have hstanding := h.standing t
    rwa [hphase] at hstanding
  unfold insertRow at hstep
  split_ifs at hstep with hfree htaken
  · rw [← Option.some.inj hstep]
    exact h.raise hrunning
  · rw [← Option.some.inj hstep]
    refine h.move hrunning (by simp) rfl rfl (fun u hu => unseen_write hfree hu) ⟨?_, ?_⟩
      fun _ => ⟨?_, ⟨id, "Admin"⟩, ?_, rfl⟩
    · intro k hk
      exact (lock_modify_self.mp hk).resolve_right (hlocks k)
    · rw [view_modify_self, Function.update_self]
      rfl
    · rw [view_of_not_lock (hlocks _)] at htaken
      simpa using htaken
    · rw [view_modify_self, Function.update_self]

/-- What a run sees of its role stays while it writes its user. -/
theorem view_role_write (w : World τ O) (t : τ) (f : Row O → Row O) :
    (w.store.modify t (args t).key f).view t (.role "admin") =
      w.store.view t (.role "admin") := by
  have hne : Key.role "admin" ≠ (args t).key := by
    intro heq
    cases heq
  rw [view_modify_self, Function.update_of_ne hne]

/-- A run writes its user. -/
theorem Inv.writeUser (h : Inv env args init w) (hrunning : (w.phase t).isOver = false)
    {adminRole : RoleModel} (hrole : InRole w.store t adminRole) (hfree : w.Free t (args t).key)
    {f : Row O → Row O} {user : UserModel O}
    (hf : f (w.store.rows (args t).key) = some (.inr user))
    (hpromoted : Promoted env (args t) adminRole user)
    (hfollows : Follows (asUser (w.store.rows (args t).key)) user) :
    Inv env args init (w.write t (args t).key f .written) := by
  have hview : (w.store.modify t (args t).key f).view t (args t).key = some (.inr user) := by
    rw [view_modify_self, Function.update_self, view_key hrole, hf]
  have hviewRole : (w.store.modify t (args t).key f).view t (.role "admin") =
      w.store.view t (.role "admin") := view_role_write w t f
  refine h.move hrunning (by simp) rfl rfl (fun u hu => unseen_write hfree hu) ⟨?_, ?_, ?_⟩ ?_
  · intro k hk
    rcases lock_modify_self.mp hk with hkey | hold
    · exact .inr hkey
    · exact .inl (hrole.locks k hold)
  · exact lock_modify_self.mpr (.inl rfl)
  · refine ⟨adminRole, user, ?_, asUser_eq_some_iff.mpr hview, hpromoted, hfollows⟩
    rw [hviewRole, hrole.role]
  · intro hlock
    rw [hviewRole]
    have hne : Key.role "admin" ≠ (args t).key := by
      intro heq
      cases heq
    exact h.inserted t ((lock_modify_self.mp hlock).resolve_left hne)

/-! ## Commits -/

theorem Inv.view_of_other_key (h : Inv env args init w) {k : Key} (hrole : k ≠ .role "admin")
    (huser : k ≠ (args t).key) : w.store.view t k = w.store.rows k := by
  refine view_of_not_lock fun hlock => ?_
  rcases (h.standing t).locks hlock with heq | heq
  · exact hrole heq
  · exact huser heq

/-- A role that is committed is what every run sees. -/
theorem Inv.view_role (h : Inv env args init w) {adminRole : RoleModel}
    (hrow : w.store.rows (.role "admin") = some (.inl adminRole)) :
    w.store.view t (.role "admin") = some (.inl adminRole) := by
  rw [view_of_not_lock, hrow]
  intro hlock
  rw [(h.inserted t hlock).1] at hrow
  cases hrow

theorem Inv.view_role_commit (h : Inv env args init w) {u : τ} (hu : u ≠ t)
    {adminRole : RoleModel} (hrole : asRole (w.store.view u (.role "admin")) = some adminRole) :
    asRole ((w.store.commit t).view u (.role "admin")) = some adminRole := by
  by_cases hlock : w.store.lock (.role "admin") = some u
  · rw [view_commit_of_lock hu hlock, hrole]
  · rw [view_of_not_lock hlock] at hrole
    rw [view_commit_of_not_lock hlock, h.view_role (asRole_eq_some_iff.mp hrole)]
    rfl

/-- A user that is committed stays, with its id. -/
theorem Inv.user_commit (h : Inv env args init w) (hwritten : Written env args w.store t)
    {email : String} {found : UserModel O}
    (hfound : asUser (w.store.rows (.user email)) = some found) :
    ∃ found', asUser (w.store.view t (.user email)) = some found' ∧ found'.id = found.id := by
  by_cases hkey : Key.user email = (args t).key
  · obtain ⟨-, user, -, huser, -, hfollows⟩ := hwritten.promoted
    rw [← hkey, hfound] at hfollows
    exact ⟨user, hkey ▸ huser, hfollows.1⟩
  · rw [h.view_of_other_key (by simp) hkey]
    exact ⟨found, hfound, rfl⟩

theorem Inv.standing_commit (h : Inv env args init w) (hwritten : Written env args w.store t)
    {u : τ} (hu : u ≠ t) : Standing env args (w.store.commit t) u (w.phase u) := by
  have hlock : ∀ k, (w.store.commit t).lock k = some u ↔ w.store.lock k = some u :=
    fun _ => unlock_eq_some.trans (and_iff_left hu)
  have hnone : (∀ k, w.store.lock k ≠ some u) → ∀ k, (w.store.commit t).lock k ≠ some u :=
    fun hfree k hk => hfree k ((hlock k).mp hk)
  have hinRole : ∀ adminRole, InRole w.store u adminRole →
      InRole (w.store.commit t) u adminRole := fun adminRole hrole =>
    ⟨fun k hk => hrole.locks k ((hlock k).mp hk), h.view_role_commit hu hrole.role⟩
  have hstanding := h.standing u
  cases hphase : w.phase u with
  | start =>
      rw [hphase] at hstanding
      exact hnone hstanding
  | noRole =>
      rw [hphase] at hstanding
      exact hnone hstanding
  | done =>
      rw [hphase] at hstanding
      exact hnone hstanding
  | failed =>
      rw [hphase] at hstanding
      exact hnone hstanding
  | hasRole adminRole =>
      rw [hphase] at hstanding
      exact hinRole _ hstanding
  | hashed adminRole passwordHash =>
      rw [hphase] at hstanding
      exact ⟨hinRole _ hstanding.1, hstanding.2⟩
  | noUser adminRole passwordHash =>
      rw [hphase] at hstanding
      exact ⟨hinRole _ hstanding.1, hstanding.2⟩
  | hasUser adminRole passwordHash user =>
      rw [hphase] at hstanding
      obtain ⟨hrole, hhash, found, hfound, hid⟩ := hstanding
      obtain ⟨found', hfound', hid'⟩ := h.user_commit hwritten hfound
      exact ⟨hinRole _ hrole, hhash, found', hfound', hid'.trans hid⟩
  | written =>
      rw [hphase] at hstanding
      have hother : Written env args w.store u := hstanding
      obtain ⟨adminRole, user, hrole, huser, hpromoted, hfollows⟩ := hother.promoted
      have hrow : (w.store.commit t).rows (args u).key = w.store.rows (args u).key :=
        view_of_not_lock (lock_ne hother.held (Ne.symm hu))
      refine ⟨fun k hk => hother.locks k ((hlock k).mp hk), (hlock _).mpr hother.held, adminRole,
        user, h.view_role_commit hu hrole, ?_, hpromoted, hrow ▸ hfollows⟩
      rw [view_commit_of_lock hu hother.held, huser]

omit [DecidableEq τ] in
theorem lastRun_concat (committed : List τ) (t : τ) (email : String) :
    lastRun env args (committed ++ [t]) email =
      if (args t).key = .user email then some t else lastRun env args committed email := by
  unfold lastRun
  rw [List.filter_append]
  by_cases hkey : (args t).key = .user email
  · simp [hkey]
  · simp [hkey]

theorem Inv.users_commit (h : Inv env args init w) (hwritten : Written env args w.store t)
    (email : String) : UserKept env args init (w.committed ++ [t]) (w.store.view t) email := by
  have hkept := h.users email
  unfold UserKept at hkept ⊢
  rw [lastRun_concat]
  by_cases hkey : (args t).key = .user email
  · rw [if_pos hkey]
    obtain ⟨adminRole, user, hrole, huser, hpromoted, hfollows⟩ := hwritten.promoted
    rw [hkey] at huser hfollows
    refine ⟨adminRole, user, asRole_eq_some_iff.mp hrole, asUser_eq_some_iff.mp huser, hpromoted,
      ?_⟩
    split at hkept
    · rwa [hkept] at hfollows
    · obtain ⟨-, old, -, hold, -, hbefore⟩ := hkept
      rw [asUser_eq_some_iff.mpr hold] at hfollows
      exact hbefore.trans hfollows
  · rw [if_neg hkey, h.view_of_other_key (by simp) (Ne.symm hkey)]
    split at hkept
    · exact hkept
    · obtain ⟨adminRole, user, hrole, hrest⟩ := hkept
      exact ⟨adminRole, user, h.view_role hrole, hrest⟩

theorem Inv.role_commit (h : Inv env args init w) :
    RoleKept (init (.role "admin")) (w.store.view t (.role "admin")) := by
  by_cases hlock : w.store.lock (.role "admin") = some t
  · obtain ⟨hnone, hadmin⟩ := h.inserted t hlock
    refine .inr ⟨?_, hadmin⟩
    rcases h.role with hsame | ⟨hinit, -⟩
    · rw [← hsame, hnone]
    · exact hinit
  · rw [view_of_not_lock hlock]
    exact h.role

theorem Inv.commit (h : Inv env args init w) (hphase : w.phase t = .written)
    (hdone : phase' = .done ∨ phase' = .failed) :
    Inv env args init ⟨w.store.commit t, Function.update w.phase t phase'⟩ := by
  have hwritten : Written env args w.store t := by
    have hstanding := h.standing t
    rwa [hphase] at hstanding
  have hcommitted : World.committed (O := O) ⟨w.store.commit t, Function.update w.phase t phase'⟩ =
      w.committed ++ [t] := List.map_append
  constructor
  · intro u
    change Standing env args (w.store.commit t) u (Function.update w.phase t phase' u)
    by_cases hu : u = t
    · have hfree : ∀ k, (w.store.commit t).lock k ≠ some t :=
        fun k hlock => (unlock_eq_some.mp hlock).2 rfl
      rw [hu, Function.update_self]
      rcases hdone with rfl | rfl
      · exact hfree
      · exact hfree
    · rw [Function.update_of_ne hu]
      exact h.standing_commit hwritten hu
  · intro u hlock
    obtain ⟨hold, hu⟩ := unlock_eq_some.mp hlock
    obtain ⟨hnone, hadmin⟩ := h.inserted u hold
    have hview := view_commit_of_lock hu hold
    refine ⟨?_, hview ▸ hadmin⟩
    change w.store.view t (.role "admin") = none
    rw [view_of_not_lock (lock_ne hold (Ne.symm hu)), hnone]
  · exact h.role_commit
  · intro code hcode
    refine (h.view_of_other_key ?_ ?_).trans (h.otherRoles code hcode)
    · simpa using hcode
    · intro heq
      cases heq
  · intro email
    rw [hcommitted]
    exact h.users_commit hwritten email
  · intro u hu
    change (Function.update w.phase t phase' u).isOver = true
    by_cases heq : u = t
    · rw [heq, Function.update_self]
      rcases hdone with rfl | rfl
      · rfl
      · rfl
    · rw [hcommitted] at hu
      rw [Function.update_of_ne heq]
      refine h.ended u ((List.mem_append.mp hu).resolve_right ?_)
      rwa [List.mem_singleton]
  · intro u hu
    change Function.update w.phase t phase' u = .done at hu
    rw [hcommitted]
    by_cases heq : u = t
    · exact List.mem_append.mpr (.inr (List.mem_singleton.mpr heq))
    · rw [Function.update_of_ne heq] at hu
      exact List.mem_append_left _ (h.done u hu)

/-! ## Steps -/

theorem Inv.updateUser (h : Inv env args init w) {adminRole : RoleModel} {passwordHash : String}
    {user : UserModel O} (hphase : w.phase t = .hasUser adminRole passwordHash user)
    (hfree : w.Free t (args t).key) :
    Inv env args init
      (w.write t (args t).key (promoteRow env adminRole passwordHash user) .written) := by
  have hstanding := h.standing t
  rw [hphase] at hstanding
  obtain ⟨hrole, ⟨salt, hhash⟩, found, hfound, hid⟩ := hstanding
  have hf : promoteRow env adminRole passwordHash user (w.store.rows (args t).key) =
      some (.inr (found.promote env adminRole passwordHash)) := by
    rw [asUser_eq_some_iff.mp hfound]
    exact if_pos hid
  refine h.writeUser (by rw [hphase]; rfl) hrole hfree hf
    ⟨rfl, rfl, salt, passwordHash, hhash, rfl⟩ ?_
  rw [hfound]
  exact ⟨rfl, rfl⟩

theorem Inv.insertUser (h : Inv env args init w) {adminRole : RoleModel} {passwordHash id : String}
    (hphase : w.phase t = .noUser adminRole passwordHash) {w' : World τ O}
    (hstep : insertRow w t (args t).key (.inr (newUser env id adminRole passwordHash)) .written =
      some w') : Inv env args init w' := by
  have hrunning : (w.phase t).isOver = false := by rw [hphase]; rfl
  have hstanding := h.standing t
  rw [hphase] at hstanding
  obtain ⟨hrole, salt, hhash⟩ := hstanding
  unfold insertRow at hstep
  split_ifs at hstep with hfree htaken
  · rw [← Option.some.inj hstep]
    exact h.raise hrunning
  · rw [← Option.some.inj hstep]
    refine h.writeUser hrunning hrole hfree rfl ⟨rfl, rfl, salt, passwordHash, hhash, rfl⟩ ?_
    rw [view_key hrole] at htaken
    have hnone : w.store.rows (args t).key = none := by simpa using htaken
    rw [hnone]
    rfl

/-- A statement fails while the run is going on. -/
theorem step_fail (hrunning : (w.phase t).isOver = false) :
    step env args w (t, .fail) = some (w.raise t) := by
  unfold step
  cases hphase : w.phase t with
  | done =>
      rw [hphase] at hrunning
      cases hrunning
  | failed =>
      rw [hphase] at hrunning
      cases hrunning
  | _ => simp [hphase]

theorem inv_step (w : World τ O) (event : τ × Action σ) (w' : World τ O)
    (h : Inv env args init w) (hstep : Step env args w event w') : Inv env args init w' := by
  obtain ⟨t, action⟩ := event
  have hstanding := h.standing t
  have hfail : action = .fail → (w.phase t).isOver = false → Inv env args init w' := by
    rintro rfl hrunning
    rw [Step, StepOf, step_fail hrunning] at hstep
    exact Option.some.inj hstep ▸ h.raise hrunning
  cases hphase : w.phase t with
  | start =>
      have hrunning : (w.phase t).isOver = false := by rw [hphase]; rfl
      rw [hphase] at hstanding
      cases action with
      | selectRole =>
          simp only [Step, StepOf, step, hphase, Option.some.injEq] at hstep
          rw [← hstep]
          split
          · rename_i adminRole hrole
            exact h.goto hrunning (by simp) ⟨fun k hk => absurd hk (hstanding k), hrole⟩
          · exact h.goto hrunning (by simp) hstanding
      | fail => exact hfail rfl hrunning
      | _ => simp [Step, StepOf, step, hphase] at hstep
  | noRole =>
      cases action with
      | insertRole id =>
          simp only [Step, StepOf, step, hphase] at hstep
          exact h.insertRole hphase hstep
      | fail => exact hfail rfl (by rw [hphase]; rfl)
      | _ => simp [Step, StepOf, step, hphase] at hstep
  | hasRole adminRole =>
      have hrunning : (w.phase t).isOver = false := by rw [hphase]; rfl
      rw [hphase] at hstanding
      cases action with
      | hashPassword salt =>
          simp only [Step, StepOf, step, hphase, Option.some.injEq] at hstep
          rw [← hstep]
          split
          · rename_i passwordHash hhash
            exact h.goto hrunning (by simp) ⟨hstanding, salt, hhash⟩
          · exact h.raise hrunning
      | fail => exact hfail rfl hrunning
      | _ => simp [Step, StepOf, step, hphase] at hstep
  | hashed adminRole passwordHash =>
      have hrunning : (w.phase t).isOver = false := by rw [hphase]; rfl
      rw [hphase] at hstanding
      obtain ⟨hrole, hhash⟩ := hstanding
      cases action with
      | selectUser =>
          simp only [Step, StepOf, step, hphase, Option.some.injEq] at hstep
          rw [← hstep]
          split
          · rename_i user huser
            rw [view_key hrole] at huser
            exact h.goto hrunning (by simp) ⟨hrole, hhash, user, huser, rfl⟩
          · exact h.goto hrunning (by simp) ⟨hrole, hhash⟩
      | fail => exact hfail rfl hrunning
      | _ => simp [Step, StepOf, step, hphase] at hstep
  | noUser adminRole passwordHash =>
      cases action with
      | insertUser id =>
          simp only [Step, StepOf, step, hphase] at hstep
          exact h.insertUser hphase hstep
      | fail => exact hfail rfl (by rw [hphase]; rfl)
      | _ => simp [Step, StepOf, step, hphase] at hstep
  | hasUser adminRole passwordHash user =>
      cases action with
      | updateUser =>
          simp only [Step, StepOf, step, hphase] at hstep
          split_ifs at hstep with hfree
          exact Option.some.inj hstep ▸ h.updateUser hphase hfree
      | fail => exact hfail rfl (by rw [hphase]; rfl)
      | _ => simp [Step, StepOf, step, hphase] at hstep
  | written =>
      cases action with
      | commit replied =>
          simp only [Step, StepOf, step, hphase, Option.some.injEq] at hstep
          rw [← hstep]
          refine h.commit hphase ?_
          cases replied with
          | false => exact .inr rfl
          | true => exact .inl rfl
      | fail => exact hfail rfl (by rw [hphase]; rfl)
      | _ => simp [Step, StepOf, step, hphase] at hstep
  | done => simp [Step, StepOf, step, hphase] at hstep
  | failed => simp [Step, StepOf, step, hphase] at hstep

/-! ## Progress -/

def CanGoOn (env : Environment O σ) (args : τ → Arguments env) (w : World τ O) (t : τ) : Prop :=
  (w.phase t).isOver = false ∧ ∃ action w', action ≠ .fail ∧ Step env args w (t, action) w'

/-- Only a run that is about to commit holds the key of a user. -/
theorem Inv.free_of_not_written (h : Inv env args init w) (hnone : ∀ u, w.phase u ≠ .written) :
    w.Free t (args t).key := by
  cases hlock : w.store.lock (args t).key with
  | none => exact .inl hlock
  | some u =>
      have hstanding := h.standing u
      have hkey : (args t).key ≠ .role "admin" := by
        intro heq
        cases heq
      cases hphase : w.phase u with
      | written => exact absurd hphase (hnone u)
      | start => rw [hphase] at hstanding; exact absurd hlock (hstanding _)
      | noRole => rw [hphase] at hstanding; exact absurd hlock (hstanding _)
      | done => rw [hphase] at hstanding; exact absurd hlock (hstanding _)
      | failed => rw [hphase] at hstanding; exact absurd hlock (hstanding _)
      | hasRole adminRole =>
          rw [hphase] at hstanding
          exact absurd (InRole.locks hstanding _ hlock) hkey
      | hashed adminRole passwordHash =>
          rw [hphase] at hstanding
          exact absurd (hstanding.1.locks _ hlock) hkey
      | noUser adminRole passwordHash =>
          rw [hphase] at hstanding
          exact absurd (hstanding.1.locks _ hlock) hkey
      | hasUser adminRole passwordHash user =>
          rw [hphase] at hstanding
          exact absurd (hstanding.1.locks _ hlock) hkey

theorem canGoOn_of_isSome (action : Action σ) (hrunning : (w.phase t).isOver = false)
    (haction : action ≠ .fail) (hstep : (step env args w (t, action)).isSome = true) :
    CanGoOn env args w t :=
  ⟨hrunning, action, _, haction, (Option.some_get hstep).symm⟩

/-- A run that has its role waits for the key of its user only. -/
theorem canGoOn_of_hasRole [Nonempty σ] (hfree : w.Free t (args t).key)
    (hrunning : (w.phase t).isOver = false) (hrole : w.phase t ≠ .noRole) :
    CanGoOn env args w t := by
  cases hphase : w.phase t with
  | start =>
      apply canGoOn_of_isSome .selectRole hrunning (by simp)
      simp [step, hphase]
  | noRole => exact absurd hphase hrole
  | hasRole adminRole =>
      apply canGoOn_of_isSome (.hashPassword (Classical.arbitrary σ)) hrunning (by simp)
      simp [step, hphase]
  | hashed adminRole passwordHash =>
      apply canGoOn_of_isSome .selectUser hrunning (by simp)
      simp [step, hphase]
  | noUser adminRole passwordHash =>
      apply canGoOn_of_isSome (.insertUser "") hrunning (by simp)
      simp [step, hphase, insertRow, hfree]
  | hasUser adminRole passwordHash user =>
      apply canGoOn_of_isSome .updateUser hrunning (by simp)
      simp [step, hphase, hfree]
  | written =>
      apply canGoOn_of_isSome (.commit true) hrunning (by simp)
      simp [step, hphase]
  | done =>
      rw [hphase] at hrunning
      cases hrunning
  | failed =>
      rw [hphase] at hrunning
      cases hrunning

theorem canGoOn_noRole (hphase : w.phase t = .noRole) (hfree : w.Free t (.role "admin")) :
    CanGoOn env args w t := by
  apply canGoOn_of_isSome (.insertRole "") (by rw [hphase]; rfl) (by simp)
  simp [step, hphase, insertRow, hfree]

/-- The run that inserts the role has it, and goes on. -/
theorem Inv.hasRole_of_lock (h : Inv env args init w)
    (hlock : w.store.lock (.role "admin") = some t) :
    (w.phase t).isOver = false ∧ w.phase t ≠ .noRole := by
  have hstanding := h.standing t
  cases hphase : w.phase t with
  | start => rw [hphase] at hstanding; exact absurd hlock (hstanding _)
  | noRole => rw [hphase] at hstanding; exact absurd hlock (hstanding _)
  | done => rw [hphase] at hstanding; exact absurd hlock (hstanding _)
  | failed => rw [hphase] at hstanding; exact absurd hlock (hstanding _)
  | _ => simp [Phase.isOver]

theorem Inv.progress [Nonempty σ] (h : Inv env args init w)
    (hrunning : (w.phase t).isOver = false) : ∃ u, CanGoOn env args w u := by
  by_cases hwritten : ∃ u, w.phase u = .written
  · obtain ⟨u, hphase⟩ := hwritten
    refine ⟨u, canGoOn_of_isSome (.commit true) (by rw [hphase]; rfl) (by simp) ?_⟩
    simp [step, hphase]
  · have hnone : ∀ u, w.phase u ≠ .written := fun u hphase => hwritten ⟨u, hphase⟩
    by_cases hrole : w.phase t = .noRole
    · cases hlock : w.store.lock (.role "admin") with
      | none => exact ⟨t, canGoOn_noRole hrole (.inl hlock)⟩
      | some u =>
          obtain ⟨hrunning', hrole'⟩ := h.hasRole_of_lock hlock
          exact ⟨u, canGoOn_of_hasRole (h.free_of_not_written hnone) hrunning' hrole'⟩
    · exact ⟨t, canGoOn_of_hasRole (h.free_of_not_written hnone) hrunning hrole⟩

/-! ## All runs -/

/-- What holds after any interleaving of runs of the script. -/
structure AdminContract (env : Environment O σ) (args : τ → Arguments env) (init : Key → Row O)
    (w : World τ O) : Prop where
  role : RoleKept (init (.role "admin")) (w.store.rows (.role "admin"))
  otherRoles : ∀ code, code ≠ "admin" → w.store.rows (.role code) = init (.role code)
  users : ∀ email, UserKept env args init w.committed w.store.rows email
  superadmin : w.store.rows (.user (env.lower env.adminEmail)) =
    init (.user (env.lower env.adminEmail))
  /-- A run that prints "Done!" has committed. -/
  done : ∀ t, w.phase t = .done → t ∈ w.committed
  /-- No deadlock. -/
  progress : ∀ t, (w.phase t).isOver = false → ∃ u, CanGoOn env args w u

omit [DecidableEq τ] in
theorem key_ne_superadmin (arguments : Arguments env) :
    arguments.key ≠ .user (env.lower env.adminEmail) := by
  intro heq
  have haccepted := arguments.accepted
  simp only [accepts, Bool.and_eq_true, decide_eq_true_eq] at haccepted
  exact haccepted.2 (Key.user.inj heq)

omit [DecidableEq τ] in
theorem lastRun_superadmin (committed : List τ) :
    lastRun env args committed (env.lower env.adminEmail) = none := by
  unfold lastRun
  rw [List.getLast?_eq_none_iff, List.filter_eq_nil_iff]
  intro t _
  simpa using key_ne_superadmin (args t)

theorem create_admin_runs [Nonempty σ] (env : Environment O σ) (args : τ → Arguments env)
    (init : Key → Row O) {events : List (τ × Action σ)} {w : World τ O}
    (hrun : Run (Step env args) (start init) events w) : AdminContract env args init w := by
  have hinv : Inv env args init w := hrun.invariant inv_step (inv_start env args init)
  refine ⟨hinv.role, hinv.otherRoles, hinv.users, ?_, hinv.done, fun t => hinv.progress⟩
  have hkept := hinv.users (env.lower env.adminEmail)
  rw [UserKept, lastRun_superadmin] at hkept
  exact hkept

end Invariant

def exampleEnvironment : Environment Unit String where
  lower := id
  adminEmail := ""
  hashpw password salt := some (salt ++ password)
  defaults := ()
  onUpdate := id

def exampleArguments : Fin 3 → Arguments exampleEnvironment
  | 0 => ⟨"ann@example.com", "password-1", by decide⟩
  | 1 => ⟨"ann@example.com", "password-2", by decide⟩
  | 2 => ⟨"ann@example.com", "password-3", by decide⟩

/-- The second run looks for the role before the first one commits, the third one looks for its
user. -/
def exampleEvents : List (Fin 3 × Action String) :=
  [(0, .selectRole), (1, .selectRole), (0, .insertRole "r-0"), (0, .hashPassword "$2b$"),
    (0, .selectUser), (0, .insertUser "u-0"), (0, .commit true), (1, .insertRole "r-1"),
    (2, .selectRole), (2, .hashPassword "$2b$"), (2, .selectUser), (2, .updateUser),
    (2, .commit true)]

theorem create_admin_runs_threeRuns : ∃ w : World (Fin 3) Unit,
    AdminContract exampleEnvironment exampleArguments (fun _ => none) w ∧
      w.committed = [0, 2] ∧ w.phase 1 = .failed :=
  have hrun : Run (Step exampleEnvironment exampleArguments) (start fun _ => none) exampleEvents
      _ := run_of_foldlM rfl
  ⟨_, create_admin_runs exampleEnvironment exampleArguments (fun _ => none) hrun, rfl, rfl⟩

end BackendProdReady.Scripts.CreateAdmin
