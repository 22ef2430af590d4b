import BackendProdReady.Lib.PosixPath

/-!
# Where profiles are written

The directory of a profile is made of the date and of the request path, whose slashes are
replaced; its file name contains the first eight characters of the `X-Request-ID` header
as they are.  The path can still be `..`, and the header can contain slashes.  Eight
characters make two steps up, the path one, and the date is three components deep.
-/

namespace BackendProdReady.Api.Profiling

open BackendProdReady.Lib.Text
open BackendProdReady.Lib.PosixPath

/-! ## Paths -/

/-- What `get_current_utc_time` gives. -/
structure UtcTime where
  year : Nat
  month : Nat
  day : Nat
  /-- `int(t.timestamp())`. -/
  timestamp : Int

def twoDigits (n : Nat) : String := if n < 10 then "0" ++ toString n else toString n

/-- `strftime("%Y/%m/%d")`. -/
def currentDatePath (now : UtcTime) : String :=
  toString now.year ++ "/" ++ twoDigits now.month ++ "/" ++ twoDigits now.day

def endpointSafe (endpoint : String) : String :=
  let stripped := stripChar '_' (replaceChar '/' '_' endpoint)
  if stripped = "" then "root" else stripped

/-- `PROFILE_DIR / "pyinstrument"`. -/
def pyinstrumentDir (profileDir : Path) : Path := profileDir.join "pyinstrument"

def profilePath (profileDir : Path) (now : UtcTime) (endpoint : String) : Path :=
  ((pyinstrumentDir profileDir).join (currentDatePath now)).join (endpointSafe endpoint)

/-- The first eight characters of `X-Request-ID`, or of the timestamp where there is none. -/
def shortRequestId (now : UtcTime) (requestId : Option String) : String :=
  truncate 8 (requestId.getD (toString now.timestamp))

def baseFilename (now : UtcTime) (requestId : Option String) : String :=
  "profile_" ++ shortRequestId now requestId ++ "_" ++ toString now.timestamp

/-! ## Saving -/

inductive FsResult
  | done
  | osError
  /-- Another exception, as `ValueError` for a null character. -/
  | otherError
deriving DecidableEq

structure FileSystem where
  mkdir : Path → FsResult
  writeText : Path → FsResult

inductive Outcome (α : Type)
  | returned (value : α)
  | raised
deriving DecidableEq

def getProfilePath (fs : FileSystem) (profileDir : Path) (now : UtcTime) (endpoint : String) :
    Outcome (Option Path) :=
  let path := profilePath profileDir now endpoint
  match fs.mkdir path with
  | .done => .returned (some path)
  | .osError => .returned none
  | .otherError => .raised

/-- The paths that `write_text` was called on, and what was returned. -/
structure Saved where
  written : List Path
  outcome : Outcome (Option (Path × Path))
deriving DecidableEq

/-- `_save_profile_locally`; the clock is read for the date and again for the timestamp. -/
def saveProfileLocally (fs : FileSystem) (profileDir : Path) (dated stamped : UtcTime)
    (endpoint : String) (requestId : Option String) : Saved :=
  match getProfilePath fs profileDir dated endpoint with
  | .raised => ⟨[], .raised⟩
  | .returned none => ⟨[], .returned none⟩
  | .returned (some profilePath) =>
      let jsonPath := profilePath.join (baseFilename stamped requestId ++ ".json")
      let htmlPath := profilePath.join (baseFilename stamped requestId ++ ".html")
      match fs.writeText jsonPath with
      | .osError => ⟨[jsonPath], .returned none⟩
      | .otherError => ⟨[jsonPath], .raised⟩
      | .done =>
          match fs.writeText htmlPath with
          | .osError => ⟨[jsonPath, htmlPath], .returned none⟩
          | .otherError => ⟨[jsonPath, htmlPath], .raised⟩
          | .done => ⟨[jsonPath, htmlPath], .returned (some (jsonPath, htmlPath))⟩

theorem mem_written {fs : FileSystem} {profileDir : Path} {dated stamped : UtcTime}
    {endpoint : String} {requestId : Option String} {path : Path}
    (h : path ∈ (saveProfileLocally fs profileDir dated stamped endpoint requestId).written) :
    ∃ extension ∈ [".json", ".html"],
      path = (profilePath profileDir dated endpoint).join
        (baseFilename stamped requestId ++ extension) := by
  unfold saveProfileLocally getProfilePath at h
  cases hmkdir : fs.mkdir (profilePath profileDir dated endpoint) with
  | osError | otherError => simp [hmkdir] at h
  | done =>
      simp only [hmkdir] at h
      split at h
      · exact ⟨".json", by simp, by simpa using h⟩
      · exact ⟨".json", by simp, by simpa using h⟩
      · have hboth : path = (profilePath profileDir dated endpoint).join
            (baseFilename stamped requestId ++ ".json") ∨
            path = (profilePath profileDir dated endpoint).join
              (baseFilename stamped requestId ++ ".html") := by
          split at h <;> simpa using h
        rcases hboth with hjson | hhtml
        · exact ⟨".json", by simp, hjson⟩
        · exact ⟨".html", by simp, hhtml⟩

/-! ## The directory -/

theorem isAsciiDigits_twoDigits (n : Nat) : isAsciiDigits (twoDigits n) = true := by
  have hn := isAsciiDigits_toString n
  unfold twoDigits
  split_ifs
  · unfold isAsciiDigits at hn ⊢
    rw [String.toList_append]
    simp only [Bool.and_eq_true] at hn
    simpa using hn.2
  · exact hn

theorem components_currentDatePath (now : UtcTime) :
    components (currentDatePath now) =
      [toString now.year, twoDigits now.month, twoDigits now.day] := by
  have hslash : "/".toList = ['/'] := by decide
  unfold currentDatePath
  rw [components_append hslash, components_append hslash,
    (components_of_isAsciiDigits (isAsciiDigits_toString now.year)).1,
    (components_of_isAsciiDigits (isAsciiDigits_twoDigits now.month)).1,
    (components_of_isAsciiDigits (isAsciiDigits_twoDigits now.day)).1]
  rfl

/-- The date goes three components down. -/
theorem steps_currentDatePath (now : UtcTime) :
    ups (currentDatePath now) = 0 ∧ downs (currentDatePath now) = 3 := by
  have hups : ups (currentDatePath now) = 0 := by
    have hyear := (components_of_isAsciiDigits (isAsciiDigits_toString now.year)).2
    have hmonth := (components_of_isAsciiDigits (isAsciiDigits_twoDigits now.month)).2
    have hday := (components_of_isAsciiDigits (isAsciiDigits_twoDigits now.day)).2
    rw [ups, components_currentDatePath, List.count_eq_zero]
    simp only [List.mem_cons, List.not_mem_nil, or_false, not_or]
    exact ⟨hyear.symm, hmonth.symm, hday.symm⟩
  refine ⟨hups, ?_⟩
  rw [downs, hups, components_currentDatePath]
  rfl

theorem notMem_endpointSafe (endpoint : String) : '/' ∉ (endpointSafe endpoint).toList := by
  have hreplaced : '/' ∉ (replaceChar '/' '_' endpoint).toList := by
    simp only [replaceChar, String.toList_ofList, List.mem_map, not_exists, not_and]
    intro c _
    split_ifs with hc
    · decide
    · exact hc
  unfold endpointSafe
  dsimp only
  split_ifs
  · decide
  · intro hmem
    apply hreplaced
    simp only [stripChar, String.toList_ofList] at hmem
    exact (List.dropWhile_sublist _).mem ((List.rdropWhile_prefix _ _).mem hmem)

/-- The directory of a profile is two components below the directory of all profiles. -/
theorem below_profilePath (profileDir : Path) (now : UtcTime) (endpoint : String) :
    Path.Below (pyinstrumentDir profileDir) 2 (profilePath profileDir now endpoint) := by
  have hdate := steps_currentDatePath now
  have hrelative : isAbsolute (currentDatePath now) = false := by
    have hyear : '/' ∉ (toString now.year).toList :=
      notMem_of_isAsciiDigits (isAsciiDigits_toString now.year) (by decide)
    have hne : toString now.year ≠ "" := Nat.repr_ne_empty
    unfold currentDatePath
    rw [String.append_assoc, String.append_assoc, String.append_assoc]
    exact isAbsolute_append (isAbsolute_of_notMem hyear) hne _
  have hday : Path.Below (pyinstrumentDir profileDir) 3
      ((pyinstrumentDir profileDir).join (currentDatePath now)) := by
    have hjoin := (Path.below_self (pyinstrumentDir profileDir)).join hrelative (by omega)
    exact hjoin.mono (by omega)
  have hups := ups_le_one (notMem_endpointSafe endpoint)
  have hjoin := hday.join (isAbsolute_of_notMem (notMem_endpointSafe endpoint)) (by omega)
  exact hjoin.mono (by omega)

/-! ## The files -/

theorem length_shortRequestId (now : UtcTime) (requestId : Option String) :
    (shortRequestId now requestId).length ≤ 8 := by
  unfold shortRequestId truncate
  rw [String.length_ofList]
  exact List.length_take_le 8 _

/-- Whatever the request, each profile file is written below the directory of all profiles. -/
theorem written_below (fs : FileSystem) (profileDir : Path) (dated stamped : UtcTime)
    (endpoint : String) (requestId : Option String) {path : Path}
    (h : path ∈ (saveProfileLocally fs profileDir dated stamped endpoint requestId).written) :
    Path.Below (pyinstrumentDir profileDir) 1 path := by
  rcases mem_written h with ⟨extension, hextension, hpath⟩
  let back := "_" ++ toString stamped.timestamp ++ extension
  have hname : baseFilename stamped requestId ++ extension =
      "profile_" ++ shortRequestId stamped requestId ++ back := by
    simp only [baseFilename, back, String.append_assoc]
  have hfront : '/' ∉ "profile_".toList := by decide
  have hback : '/' ∉ back.toList ∧ 2 < back.length := by
    have hstamp : '/' ∉ (toString stamped.timestamp).toList :=
      notMem_toString_int (by decide) (by decide) _
    have hplain : ∀ e ∈ [".json", ".html"], '/' ∉ e.toList ∧ e.length = 5 := by decide
    rcases hplain extension hextension with ⟨hslash, hlength⟩
    refine ⟨?_, ?_⟩
    · simp only [back, String.toList_append, List.mem_append, not_or]
      exact ⟨⟨by decide, hstamp⟩, hslash⟩
    · simp only [back, String.length_append, hlength]
      omega
  have hups := three_mul_ups_le hfront hback.1 (by decide) hback.2
    (shortRequestId stamped requestId)
  have hshort := length_shortRequestId stamped requestId
  have hdowns := downs_pos hback.1 hback.2 ("profile_" ++ shortRequestId stamped requestId)
  have hrelative : isAbsolute ("profile_" ++ shortRequestId stamped requestId ++ back) = false := by
    rw [String.append_assoc]
    exact isAbsolute_append (by decide) (by decide) _
  rw [hpath, hname]
  have hjoin := (below_profilePath profileDir dated endpoint).join hrelative (by omega)
  exact hjoin.mono (by omega)

def writableFileSystem : FileSystem where
  mkdir := fun _ => .done
  writeText := fun _ => .done

def lastOfJanuary : UtcTime := ⟨2025, 1, 31, 1738324800⟩

/-- A request whose path and whose header go up as far as they can. -/
theorem written_below_dots :
    let path : Path := ⟨"/", ["srv", "profiles", "pyinstrument", "2025", "01", "31", "..",
      "profile_", "..", "..", "x_1738324800.json"]⟩
    path ∈ (saveProfileLocally writableFileSystem (.parse "/srv/profiles") lastOfJanuary
        lastOfJanuary "/.." (some "/../../x")).written ∧
      path.resolve = ["srv", "profiles", "pyinstrument", "2025", "x_1738324800.json"] ∧
      Path.Below (pyinstrumentDir (.parse "/srv/profiles")) 1 path := by
  have hwritten : (⟨"/", ["srv", "profiles", "pyinstrument", "2025", "01", "31", "..",
      "profile_", "..", "..", "x_1738324800.json"]⟩ : Path) ∈
      (saveProfileLocally writableFileSystem (.parse "/srv/profiles") lastOfJanuary
        lastOfJanuary "/.." (some "/../../x")).written := by decide
  exact ⟨hwritten, by decide, written_below _ _ _ _ _ _ hwritten⟩

end BackendProdReady.Api.Profiling
