import Rask.Target

/-! # File Names, Extensions and Content Types

    The pure helpers of src/response.c that decide which file a request
    names: `_get_filename` (its text; the allocation is in
    `Rask.Response`), `_find_extension` and `_get_content_type`, together
    with `struct config`, whose paths they use.
-/

namespace Rask

/-- `struct config` of a configuration that sets every option. -/
structure Config where
  signature : Bytes
  base_path : Bytes
  default_path : Bytes
  max_connections : Int
  listen_port : Int
  log_priority : Int
  script_timeout : Int
  socket_timeout : Int
  deriving DecidableEq, Repr

/-! ### `_get_filename` -/

/-- What `strncpy(dst, src, n)` leaves in `dst` as a C string, for the `n`
    bytes at `src`: it stops at a terminator. -/
def strncpy (src : Bytes) : Bytes := src.takeWhile (· ≠ 0)

/-- The text that `_get_filename` builds. -/
def filename_text (mem : Bytes) (path : Str) (server_attrs : Config) : Except Fault Bytes := do
  let src ←
    if ← string_is_equal_to mem path (str "/") then .ok server_attrs.default_path
    else .ok (path.bytes mem)
  return server_attrs.base_path ++ strncpy src

/-- The part of the file name after `base_path`. -/
def below_base (path : Bytes) (server_attrs : Config) : Bytes :=
  strncpy (if path = str "/" then server_attrs.default_path else path)

theorem filename_text_eq {mem : Bytes} {path : Str} (h : path.InRange mem)
    (server_attrs : Config) :
    filename_text mem path server_attrs
      = .ok (server_attrs.base_path ++ below_base (path.bytes mem) server_attrs) := by
  unfold filename_text below_base
  rw [string_is_equal_to_eq h]
  by_cases hroot : path.bytes mem = str "/" <;> simp [hroot, bind, Except.bind, pure, Except.pure]

/-! ### `_find_extension` -/

/-- The loop of `_find_extension`; a pointer into the name is the rest of it. -/
def find_extension_from (extension : Option Bytes) : Bytes → Option Bytes
  | [] => extension
  | c :: cursor =>
    find_extension_from (if c = DOT then some (c :: cursor) else extension) cursor

/-- `_find_extension`: the name from its last dot on, or `NULL`. -/
def find_extension (filename : Bytes) : Option Bytes := find_extension_from none filename

theorem find_extension_from_isSome (extension : Option Bytes) (filename : Bytes) :
    (find_extension_from extension filename).isSome ↔ extension.isSome ∨ DOT ∈ filename := by
  induction filename generalizing extension with
  | nil => simp [find_extension_from]
  | cons c cursor ih =>
    rw [find_extension_from, ih]
    by_cases hc : c = DOT
    · simp [hc]
    · simp [hc, Ne.symm hc]

/-- There is no extension exactly when the name has no dot. -/
theorem find_extension_eq_none_iff (filename : Bytes) :
    find_extension filename = none ↔ DOT ∉ filename := by
  have h := find_extension_from_isSome none filename
  rw [← Option.not_isSome_iff_eq_none, find_extension, h]
  simp

/-! ### `_get_content_type` -/

/-- `_get_content_type`: the suffixes the server knows, in the source's order. -/
def get_content_type (extension : Bytes) : Option Bytes :=
  if extension = str ".txt" then some (str "text/plain")
  else if extension = str ".html" then some (str "text/html")
  else if extension = str ".htm" then some (str "text/html")
  else if extension = str ".gif" then some (str "image/gif")
  else if extension = str ".jpeg" then some (str "image/jpeg")
  else if extension = str ".png" then some (str "image/png")
  else if extension = str ".jpg" then some (str "image/jpeg")
  else if extension = str ".mpeg" then some (str "video/mpeg")
  else if extension = str ".mpg" then some (str "video/mpeg")
  else if extension = str ".mp4" then some (str "video/mp4")
  else if extension = str ".doc" then some (str "application/msword")
  else if extension = str ".docx" then some (str "application/msword")
  else if extension = str ".pdf" then some (str "application/pdf")
  else none

/-- One `MATCH` of `_get_content_type`. -/
theorem match_mem {c : Prop} [Decidable c] {type content_type : Bytes} {other : Option Bytes}
    {types : List Bytes} (htype : type ∈ types) (hother : other = some content_type → content_type ∈ types)
    (h : (if c then some type else other) = some content_type) : content_type ∈ types := by
  by_cases hc : c
  · rw [if_pos hc] at h
    exact Option.some.inj h ▸ htype
  · rw [if_neg hc] at h
    exact hother h

/-- The content types of the source. -/
def content_types : List Bytes :=
  [str "text/plain", str "text/html", str "image/gif", str "image/jpeg", str "image/png",
    str "video/mpeg", str "video/mp4", str "application/msword", str "application/pdf"]

theorem get_content_type_mem {extension content_type : Bytes} :
    get_content_type extension = some content_type → content_type ∈ content_types :=
  match_mem (by decide) <| match_mem (by decide) <| match_mem (by decide) <|
    match_mem (by decide) <| match_mem (by decide) <| match_mem (by decide) <|
    match_mem (by decide) <| match_mem (by decide) <| match_mem (by decide) <|
    match_mem (by decide) <| match_mem (by decide) <| match_mem (by decide) <|
    match_mem (by decide) nofun

end Rask
