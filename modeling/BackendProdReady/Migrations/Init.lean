import BackendProdReady.Lib.Ddl

/-!
# The first migration

`upgrade` creates the tables of the identity kit with their indexes and adds a role and a
plan; `downgrade` drops the indexes and the tables.  Its statements are those of `upgrade`,
taken back in the opposite order.
-/

namespace BackendProdReady.Migrations.Init

open BackendProdReady.Lib.Ddl

/-! ## The schema -/

def features : Table where
  name := "features"
  columns := [⟨"code", .string 255, false⟩, ⟨"name", .string 255, false⟩, ⟨"id", .uuid, false⟩]
  primaryKey := ⟨"pk_features", ["id"]⟩
  uniques := []
  foreignKeys := []

def permissions : Table where
  name := "permissions"
  columns := [⟨"code", .string 255, false⟩, ⟨"type", .string 255, false⟩, ⟨"id", .uuid, false⟩]
  primaryKey := ⟨"pk_permissions", ["id"]⟩
  uniques := []
  foreignKeys := []

def plans : Table where
  name := "plans"
  columns := [⟨"code", .string 255, false⟩, ⟨"name", .string 255, false⟩, ⟨"id", .uuid, false⟩]
  primaryKey := ⟨"pk_plans", ["id"]⟩
  uniques := []
  foreignKeys := []

def roles : Table where
  name := "roles"
  columns := [⟨"code", .string 255, false⟩, ⟨"name", .string 255, false⟩, ⟨"id", .uuid, false⟩]
  primaryKey := ⟨"pk_roles", ["id"]⟩
  uniques := []
  foreignKeys := []

def planLimits : Table where
  name := "plan_limits"
  columns := [⟨"plan_id", .uuid, false⟩, ⟨"feature_id", .uuid, false⟩,
    ⟨"feature_limit", .bigInteger, false⟩, ⟨"period", .string 255, true⟩, ⟨"id", .uuid, false⟩]
  primaryKey := ⟨"pk_plan_limits", ["id"]⟩
  uniques := [⟨"uq_plan_feature_limit", ["plan_id", "feature_id"]⟩]
  foreignKeys :=
    [⟨"fk_plan_limits_feature_id_features", ["feature_id"], "features", ["id"], some "CASCADE"⟩,
      ⟨"fk_plan_limits_plan_id_plans", ["plan_id"], "plans", ["id"], some "CASCADE"⟩]

def planPermissions : Table where
  name := "plan_permissions"
  columns := [⟨"plan_id", .uuid, false⟩, ⟨"permission_id", .uuid, false⟩, ⟨"id", .uuid, false⟩]
  primaryKey := ⟨"pk_plan_permissions", ["id"]⟩
  uniques := [⟨"uq_plan_permission", ["plan_id", "permission_id"]⟩]
  foreignKeys :=
    [⟨"fk_plan_permissions_permission_id_permissions", ["permission_id"],
      "permissions", ["id"], some "CASCADE"⟩,
      ⟨"fk_plan_permissions_plan_id_plans", ["plan_id"], "plans", ["id"], some "CASCADE"⟩]

def rolePermissions : Table where
  name := "role_permissions"
  columns := [⟨"role_id", .uuid, false⟩, ⟨"permission_id", .uuid, false⟩, ⟨"id", .uuid, false⟩]
  primaryKey := ⟨"pk_role_permissions", ["id"]⟩
  uniques := [⟨"uq_role_permission", ["role_id", "permission_id"]⟩]
  foreignKeys :=
    [⟨"fk_role_permissions_permission_id_permissions", ["permission_id"],
      "permissions", ["id"], some "CASCADE"⟩,
      ⟨"fk_role_permissions_role_id_roles", ["role_id"], "roles", ["id"], some "CASCADE"⟩]

def users : Table where
  name := "users"
  columns := [⟨"email", .string 255, false⟩, ⟨"password_hash", .string 255, true⟩,
    ⟨"role_id", .uuid, false⟩, ⟨"is_active", .boolean, false⟩, ⟨"is_verified", .boolean, false⟩,
    ⟨"id", .uuid, false⟩, ⟨"created_at", .dateTime true, false⟩,
    ⟨"updated_at", .dateTime true, false⟩]
  primaryKey := ⟨"pk_users", ["id"]⟩
  uniques := []
  foreignKeys := [⟨"fk_users_role_id_roles", ["role_id"], "roles", ["id"], none⟩]

def refreshTokens : Table where
  name := "refresh_tokens"
  columns := [⟨"user_id", .uuid, false⟩, ⟨"token_hash", .string 255, false⟩,
    ⟨"expires_at", .dateTime true, false⟩, ⟨"created_at", .dateTime true, false⟩,
    ⟨"revoked_at", .dateTime true, true⟩, ⟨"user_agent", .text, true⟩,
    ⟨"ip_address", .string 45, true⟩, ⟨"id", .uuid, false⟩]
  primaryKey := ⟨"pk_refresh_tokens", ["id"]⟩
  uniques := []
  foreignKeys :=
    [⟨"fk_refresh_tokens_user_id_users", ["user_id"], "users", ["id"], some "CASCADE"⟩]

def userPlans : Table where
  name := "user_plans"
  columns := [⟨"user_id", .uuid, false⟩, ⟨"plan_id", .uuid, false⟩, ⟨"started_at", .date, false⟩,
    ⟨"ends_at", .date, false⟩, ⟨"custom_limits", .jsonb, false⟩,
    ⟨"is_cancelled", .boolean, false⟩, ⟨"cancelled_at", .dateTime true, true⟩,
    ⟨"id", .uuid, false⟩]
  primaryKey := ⟨"pk_user_plans", ["id"]⟩
  uniques := []
  foreignKeys :=
    [⟨"fk_user_plans_plan_id_plans", ["plan_id"], "plans", ["id"], some "RESTRICT"⟩,
      ⟨"fk_user_plans_user_id_users", ["user_id"], "users", ["id"], some "CASCADE"⟩]

def userProviders : Table where
  name := "user_providers"
  columns := [⟨"user_id", .uuid, false⟩, ⟨"code", .string 255, false⟩,
    ⟨"external_user_id", .text, false⟩, ⟨"id", .uuid, false⟩]
  primaryKey := ⟨"pk_user_providers", ["id"]⟩
  uniques := []
  foreignKeys :=
    [⟨"fk_user_providers_user_id_users", ["user_id"], "users", ["id"], some "CASCADE"⟩]

def featureUsage : Table where
  name := "feature_usage"
  columns := [⟨"user_plan_id", .uuid, false⟩, ⟨"feature_id", .uuid, false⟩,
    ⟨"feature_usage", .bigInteger, false⟩, ⟨"start_period", .date, false⟩,
    ⟨"end_period", .date, false⟩, ⟨"id", .uuid, false⟩]
  primaryKey := ⟨"pk_feature_usage", ["id"]⟩
  uniques := [⟨"uq_usage_plan_feature_period", ["user_plan_id", "feature_id", "start_period"]⟩]
  foreignKeys :=
    [⟨"fk_feature_usage_feature_id_features", ["feature_id"], "features", ["id"], some "CASCADE"⟩,
      ⟨"fk_feature_usage_user_plan_id_user_plans", ["user_plan_id"],
        "user_plans", ["id"], some "CASCADE"⟩]

def schemaUpgrade : List Statement :=
  [.createTable features,
    .createIndex ⟨"ix_features_code", "features", ["code"], true, none⟩,
    .createTable permissions,
    .createIndex ⟨"ix_permissions_code", "permissions", ["code"], true, none⟩,
    .createTable plans,
    .createIndex ⟨"ix_plans_code", "plans", ["code"], true, none⟩,
    .createTable roles,
    .createIndex ⟨"ix_roles_code", "roles", ["code"], true, none⟩,
    .createTable planLimits,
    .createIndex ⟨"ix_plan_limits_feature_id", "plan_limits", ["feature_id"], false, none⟩,
    .createIndex ⟨"ix_plan_limits_plan_id", "plan_limits", ["plan_id"], false, none⟩,
    .createTable planPermissions,
    .createIndex ⟨"ix_plan_permissions_permission_id", "plan_permissions",
      ["permission_id"], false, none⟩,
    .createIndex ⟨"ix_plan_permissions_plan_id", "plan_permissions", ["plan_id"], false, none⟩,
    .createTable rolePermissions,
    .createIndex ⟨"ix_role_permissions_permission_id", "role_permissions",
      ["permission_id"], false, none⟩,
    .createIndex ⟨"ix_role_permissions_role_id", "role_permissions", ["role_id"], false, none⟩,
    .createTable users,
    .createIndex ⟨"ix_users_email", "users", ["email"], true, none⟩,
    .createTable refreshTokens,
    .createIndex ⟨"ix_refresh_tokens_cleanup", "refresh_tokens",
      ["expires_at", "revoked_at"], false, none⟩,
    .createIndex ⟨"ix_refresh_tokens_expires_at", "refresh_tokens", ["expires_at"], false, none⟩,
    .createIndex ⟨"ix_refresh_tokens_hash_active", "refresh_tokens",
      ["token_hash"], false, some "revoked_at IS NULL"⟩,
    .createIndex ⟨"ix_refresh_tokens_token_hash", "refresh_tokens", ["token_hash"], false, none⟩,
    .createIndex ⟨"ix_refresh_tokens_user_id", "refresh_tokens", ["user_id"], false, none⟩,
    .createTable userPlans,
    .createIndex ⟨"ix_user_plans_active_lookup", "user_plans",
      ["user_id", "started_at", "ends_at"], false, none⟩,
    .createIndex ⟨"ix_user_plans_active_not_cancelled", "user_plans",
      ["user_id", "started_at", "ends_at"], false, some "is_cancelled = false"⟩,
    .createIndex ⟨"ix_user_plans_plan_id", "user_plans", ["plan_id"], false, none⟩,
    .createIndex ⟨"ix_user_plans_user_id", "user_plans", ["user_id"], false, none⟩,
    .createTable userProviders,
    .createIndex ⟨"ix_user_providers_external_user_id", "user_providers",
      ["external_user_id"], false, none⟩,
    .createIndex ⟨"ix_user_providers_unique", "user_providers",
      ["code", "external_user_id"], true, none⟩,
    .createIndex ⟨"ix_user_providers_user_id", "user_providers", ["user_id"], false, none⟩,
    .createTable featureUsage,
    .createIndex ⟨"ix_feature_usage_feature_id", "feature_usage", ["feature_id"], false, none⟩,
    .createIndex ⟨"ix_feature_usage_period_lookup", "feature_usage",
      ["user_plan_id", "feature_id", "start_period", "end_period"], false, none⟩,
    .createIndex ⟨"ix_feature_usage_user_plan_id", "feature_usage", ["user_plan_id"], false, none⟩]

/-- The two rows have ids from `gen_random_uuid()`. -/
def seeds (roleId planId : String) : List Statement :=
  [.insert "roles" [("id", roleId), ("code", "user"), ("name", "User")],
    .insert "plans" [("id", planId), ("code", "free"), ("name", "Free")]]

def upgrade (roleId planId : String) : List Statement := schemaUpgrade ++ seeds roleId planId

def downgrade : List Statement :=
  [.dropIndex "ix_feature_usage_user_plan_id", .dropIndex "ix_feature_usage_period_lookup",
    .dropIndex "ix_feature_usage_feature_id", .dropTable "feature_usage",
    .dropIndex "ix_user_providers_user_id", .dropIndex "ix_user_providers_unique",
    .dropIndex "ix_user_providers_external_user_id", .dropTable "user_providers",
    .dropIndex "ix_user_plans_user_id", .dropIndex "ix_user_plans_plan_id",
    .dropIndex "ix_user_plans_active_not_cancelled", .dropIndex "ix_user_plans_active_lookup",
    .dropTable "user_plans", .dropIndex "ix_refresh_tokens_user_id",
    .dropIndex "ix_refresh_tokens_token_hash", .dropIndex "ix_refresh_tokens_hash_active",
    .dropIndex "ix_refresh_tokens_expires_at", .dropIndex "ix_refresh_tokens_cleanup",
    .dropTable "refresh_tokens", .dropIndex "ix_users_email", .dropTable "users",
    .dropIndex "ix_role_permissions_role_id", .dropIndex "ix_role_permissions_permission_id",
    .dropTable "role_permissions", .dropIndex "ix_plan_permissions_plan_id",
    .dropIndex "ix_plan_permissions_permission_id", .dropTable "plan_permissions",
    .dropIndex "ix_plan_limits_plan_id", .dropIndex "ix_plan_limits_feature_id",
    .dropTable "plan_limits", .dropIndex "ix_roles_code", .dropTable "roles",
    .dropIndex "ix_plans_code", .dropTable "plans", .dropIndex "ix_permissions_code",
    .dropTable "permissions", .dropIndex "ix_features_code", .dropTable "features"]

/-! ## Up and down -/

theorem downgrade_eq_inverse : downgrade = inverse schemaUpgrade := by decide +kernel

theorem schemaUpgrade_creates : ∀ st ∈ schemaUpgrade, (undo st).isSome = true := by decide +kernel

def schema : Database := (run .empty schemaUpgrade).getD .empty

theorem run_schemaUpgrade : run .empty schemaUpgrade = some schema := by decide +kernel

theorem seeds_inserts (roleId planId : String) :
    ∀ st ∈ seeds roleId planId, ∃ table row, st = .insert table row := by
  intro st hst
  rcases List.mem_cons.mp hst with rfl | hst
  · exact ⟨_, _, rfl⟩
  · rw [List.mem_singleton.mp hst]
    exact ⟨_, _, rfl⟩

theorem exists_run_seeds (roleId planId : String) :
    ∃ filled, run schema (seeds roleId planId) = some filled :=
  Option.isSome_iff_exists.mp rfl

theorem additive_of_isSome_undo {st : Statement} (h : (undo st).isSome = true) :
    Additive st = true := by
  cases st with
  | createTable t => rfl
  | createIndex i => rfl
  | _ => cases h

/-- The database uses none of the names of the migration. -/
def Unused (db : Database) : Prop :=
  ∀ st ∈ schemaUpgrade, ∀ name ∈ touched st, name ∉ db.names

theorem seeds_unused {db : Database} (h : Unused db) (roleId planId : String) :
    ∀ st ∈ seeds roleId planId, ∀ name ∈ touched st, name ∉ db.names := by
  intro st hst name hname
  rcases List.mem_cons.mp hst with rfl | hst
  · rw [List.mem_singleton.mp hname]
    exact h (.createTable roles) (by simp [schemaUpgrade]) _ List.mem_cons_self
  · rw [List.mem_singleton.mp hst] at hname
    rw [List.mem_singleton.mp hname]
    exact h (.createTable plans) (by simp [schemaUpgrade]) _ List.mem_cons_self

theorem append_empty (db : Database) : db.append .empty = db := by
  simp [Database.append, Database.empty]

theorem run_schemaUpgrade_of_unused {db : Database} (hclosed : Closed db) (h : Unused db) :
    run db schemaUpgrade = some (db.append schema) := by
  have hframe := run_frame hclosed
    (fun st hst => additive_of_isSome_undo (schemaUpgrade_creates st hst)) h run_schemaUpgrade
  rwa [append_empty] at hframe

theorem run_seeds_of_unused {db : Database} (hclosed : Closed db) (h : Unused db)
    {roleId planId : String} {filled : Database}
    (hfilled : run schema (seeds roleId planId) = some filled) :
    run (db.append schema) (seeds roleId planId) = some (db.append filled) := by
  refine run_frame hclosed (fun st hst => ?_) (seeds_unused h roleId planId) hfilled
  obtain ⟨table, row, rfl⟩ := seeds_inserts roleId planId st hst
  rfl

theorem restored_append (db more : Database) : restored db (db.append more) = db := by
  rw [restored, Database.append, List.take_left]

structure MigrationContract (db d : Database) : Prop where
  undone : run d downgrade = some db
  /-- Later on, whatever rows were stored or deleted, the tables of before keep theirs. -/
  undoneLater : ∀ d', SameShape d d' → run d' downgrade = some (restored db d')

/-- On every database that does not use its names, `upgrade` succeeds and `downgrade` takes
it back exactly. -/
theorem upgrade_downgrade {db : Database} (hclosed : Closed db) (hunused : Unused db)
    (roleId planId : String) :
    ∃ d, run db (upgrade roleId planId) = some d ∧ MigrationContract db d := by
  obtain ⟨filled, hfilled⟩ := exists_run_seeds roleId planId
  have hschema := run_schemaUpgrade_of_unused hclosed hunused
  have hseeds := run_seeds_of_unused hclosed hunused hfilled
  have hshape := sameShape_run (seeds_inserts roleId planId) hseeds
  have hback : ∀ d', SameShape (db.append filled) d' →
      run d' downgrade = some (restored db d') := by
    intro d' hd'
    rw [downgrade_eq_inverse]
    exact (run_inverse hclosed schemaUpgrade_creates hschema (hshape.trans hd')).1
  refine ⟨db.append filled, ?_, ?_, hback⟩
  · rw [upgrade, run_append, hschema]
    exact hseeds
  · rw [hback _ (.refl _), restored_append]

/-- The table in which Alembic keeps the revision. -/
def alembicVersion : Database :=
  ⟨[⟨⟨"alembic_version", [⟨"version_num", .string 32, false⟩],
    ⟨"alembic_version_pkc", ["version_num"]⟩, [], []⟩, [[("version_num", "000")]]⟩], []⟩

theorem upgrade_downgrade_alembicVersion :
    ∃ d, run alembicVersion (upgrade "r" "p") = some d ∧ MigrationContract alembicVersion d :=
  upgrade_downgrade ⟨by decide, by decide⟩ (by unfold Unused; decide +kernel) "r" "p"

end BackendProdReady.Migrations.Init
