import Rask.Filename
import Rask.Fragmentation
import Rask.Framework.Lexical

/-! # Path Confinement

    Which accepted requests name a file below `base_path`. The check for
    `..` is made on the whole target, the arguments are cut off afterwards,
    `/` is replaced by `default_path`, and the rest is put behind
    `base_path` as it is. Nothing checks that the target starts with a
    slash, so the first segment of the target can lengthen the last
    segment of `base_path`.
-/

namespace Rask

open Lexical

/-- What is assumed of the target that `phr_parse_request` delivers: it
    lies in the buffer, is not empty, and has no space and no control byte. -/
def TargetGuarantee (phr_parse_request : PhrParser) : Prop :=
  ∀ buf num_headers last_len,
    0 < (phr_parse_request buf num_headers last_len).ret →
      (phr_parse_request buf num_headers last_len).path.InRange buf ∧
      0 < (phr_parse_request buf num_headers last_len).path.size ∧
      ∀ c ∈ (phr_parse_request buf num_headers last_len).path.bytes buf, 32 < c ∧ c ≠ 127

/-- A configuration with an absolute default path that never goes up. -/
structure DefaultPathOk (server_attrs : Config) : Prop where
  absolute : server_attrs.default_path.head? = some SLASH
  no_dotdot : [DOT, DOT] ∉ server_attrs.default_path.splitOn SLASH
  /-- A C string ends at its first zero byte. -/
  no_nul : 0 ∉ server_attrs.default_path

/-- The file name that `_get_filename` builds for a request stays below
    `base_path`. -/
def Confined (server_attrs : Config) (request : Request) : Prop :=
  ∃ name, filename_text request.buffer request.path server_attrs = .ok name ∧
    resolve SLASH DOT server_attrs.base_path <+: resolve SLASH DOT name

/-! ### The parsed target -/

theorem strncpy_eq_self {bytes : Bytes} (h : 0 ∉ bytes) : strncpy bytes = bytes := by
  unfold strncpy
  rw [List.takeWhile_eq_self_iff]
  intro c hc
  simp only [ne_eq, decide_eq_true_eq]
  exact fun heq => h (heq ▸ hc)

theorem not_dotdot_of_not_hasDotDot {target : Bytes} (h : ¬ HasDotDot target) :
    [DOT, DOT] ∉ (target_path target).splitOn SLASH := by
  intro hmem
  apply h
  exact (infix_of_mem_splitOn hmem).trans (List.takeWhile_prefix _).isInfix

/-! ### Confinement -/

/-- What is put behind `base_path` has no `..` segment, and `StaysBelow`
    says the same of it as of the path of the request. -/
theorem below_base_spec {server_attrs : Config} (hattrs : DefaultPathOk server_attrs)
    {path : Bytes} (hnul : 0 ∉ path) (hdd : [DOT, DOT] ∉ path.splitOn SLASH) (base : Bytes) :
    [DOT, DOT] ∉ (below_base path server_attrs).splitOn SLASH ∧
      (StaysBelow SLASH DOT base (below_base path server_attrs) ↔
        StaysBelow SLASH DOT base path) := by
  unfold below_base
  by_cases hroot : path = str "/"
  · rw [if_pos hroot, strncpy_eq_self hattrs.no_nul]
    refine ⟨hattrs.no_dotdot, ?_⟩
    have hpath : path.head? = some SLASH := by
      rw [hroot]
      rfl
    simp [StaysBelow, hattrs.absolute, hpath]
  · rw [if_neg hroot, strncpy_eq_self hnul]
    exact ⟨hdd, Iff.rfl⟩

/-! ### Two heads -/

/-- The guarantee holds of the parser for a single head if it holds of
    that head. -/
theorem parse_one_head_target {head : Head} (hr : head.path.InRange head.bytes)
    (hpos : 0 < head.path.size)
    (hchars : (head.path.bytes head.bytes).all (fun c => 32 < c ∧ c ≠ 127) = true) :
    TargetGuarantee (parse_one_head head) := by
  intro buf num_headers last_len hret
  obtain ⟨hbuf, hout⟩ := parse_one_head_pos hret
  rw [hout, hbuf]
  exact ⟨hr, hpos, fun c hc => of_decide_eq_true (List.all_eq_true.mp hchars c hc)⟩

/-- A server for the files below `/var/www`. -/
def var_www : Config where
  signature := str "Rask"
  base_path := str "/var/www"
  default_path := str "/index.html"
  max_connections := 10
  listen_port := 8080
  log_priority := 6
  script_timeout := 2
  socket_timeout := 2

theorem var_www_default_path : DefaultPathOk var_www :=
  ⟨by decide, by decide, by decide⟩

/-- A request whose target does not start with a slash. -/
def get_sibling : Head where
  bytes := str "GET -key.pem HTTP/1.1\r\nA: b\r\n\r\n"
  method := ⟨some 0, 3⟩
  path := ⟨some 4, 8⟩
  minor_version := 1
  headers := [⟨⟨some 23, 1⟩, ⟨some 26, 1⟩⟩]
  stored := fun n => if 29 ≤ n then 1 else 0

/-- **Path confinement.** The file name of an accepted request stays below
    `base_path` exactly when the part of the target before the first
    question mark is empty or absolute, or is glued to a segment of
    `base_path` that is no name. -/
theorem confined_iff {phr_parse_request : PhrParser} (hphr : TargetGuarantee phr_parse_request)
    {server_attrs : Config} (hattrs : DefaultPathOk server_attrs)
    {reads rest : List ReadResult} {request accepted : Request}
    (h : request_process phr_parse_request reads request = .returned OK accepted rest) :
    ∃ target, request_target phr_parse_request reads request = some target ∧
      (Confined server_attrs accepted ↔
        StaysBelow SLASH DOT server_attrs.base_path (target_path target)) := by
  obtain ⟨parsed, hread, hfinish⟩ := request_process_ok h
  refine ⟨parsed.target, by simp [request_target, hread], ?_⟩
  obtain ⟨num_headers, last_len, hret, _, hpath, _, _⟩ := request_read_parsed_out hread
  obtain ⟨hrange, hsize, hchars⟩ := hphr parsed.buffer num_headers last_len hret
  rw [← hpath] at hrange hsize hchars
  obtain ⟨hdd, hbody⟩ := request_finish_ok hrange hsize hfinish
  obtain ⟨hrange', hbytes⟩ := accepted_path hrange hsize hfinish
  -- the target has no zero byte, so neither has the path
  have hnul : 0 ∉ target_path parsed.target := by
    intro hmem
    have hpos := (hchars 0 ((List.takeWhile_prefix _).subset hmem)).1
    exact absurd hpos (by decide)
  obtain ⟨hbelow, hstays⟩ := below_base_spec hattrs hnul (not_dotdot_of_not_hasDotDot hdd)
    server_attrs.base_path
  rw [← hstays, ← resolve_append_prefix_iff hbelow]
  unfold Confined
  rw [filename_text_eq hrange', hbytes]
  simp

/-- The request for `/` names a file below `/var/www`. -/
theorem confined_iff_get_root :
    ∃ target, request_target (parse_one_head get_root) (deliver [get_root.bytes])
        Request.uninitialised = some target ∧
      (Confined var_www ⟨get_root.bytes, 0, ⟨some 0, 3⟩, ⟨some 4, 1⟩, ⟨some 27, 0⟩, Str.null, 1,
          get_root.headers, 1⟩ ↔
        StaysBelow SLASH DOT var_www.base_path (target_path target)) :=
  confined_iff (parse_one_head_target (by decide) (by decide) (by decide)) var_www_default_path
    (show request_process (parse_one_head get_root) (deliver [get_root.bytes])
      Request.uninitialised = .returned OK _ [] by decide)

/-- `GET -key.pem` is accepted, and names `/var/www-key.pem`, a sibling of
    `/var/www`. -/
theorem sibling_not_confined :
    TargetGuarantee (parse_one_head get_sibling) ∧ DefaultPathOk var_www ∧
      ∃ accepted, request_process (parse_one_head get_sibling) (deliver [get_sibling.bytes])
          Request.uninitialised = .returned OK accepted [] ∧
        filename_text accepted.buffer accepted.path var_www = .ok (str "/var/www-key.pem") ∧
        ¬ Confined var_www accepted := by
  refine ⟨parse_one_head_target (by decide) (by decide) (by decide), var_www_default_path,
    ⟨get_sibling.bytes, 0, ⟨some 0, 3⟩, ⟨some 4, 8⟩, ⟨some 31, 0⟩, Str.null, 1,
      get_sibling.headers, 1⟩, by decide, by decide, ?_⟩
  rintro ⟨name, hname, hprefix⟩
  have htext : name = str "/var/www-key.pem" := by
    have heq : filename_text get_sibling.bytes ⟨some 4, 8⟩ var_www
        = .ok (str "/var/www-key.pem") := by decide
    exact Except.ok.inj (hname.symm.trans heq)
  subst htext
  exact absurd hprefix (by decide)

end Rask
