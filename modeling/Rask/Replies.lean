import Rask.Response
import Rask.Framework.Framing

/-! # The Texts of the Responses

    * **Replies** are responses as they are meant: a status line, header
      lines and a body.
    * **Appends**: each group of appends in src/response.c writes the lines
      of its reply.
    * **Room**: when the buffer of a response can hold them.
-/

namespace Rask

open Framing

/-! ### Replies -/

def CR : UInt8 := 13
def LF : UInt8 := 10

/-- A response: what stands in its lines, and its body. -/
structure Reply where
  status : Nat
  message : Bytes
  date : Bytes
  headers : List Bytes
  body : Bytes

namespace Reply

variable (server_attrs : Config) (reply : Reply)

/-- The lines that `_add_common_headers` writes. -/
def common_lines : List Bytes :=
  [str "HTTP/1.1 " ++ (number_text reply.status ++ (str " " ++ reply.message)),
    str "Date: " ++ reply.date, str "Server: " ++ server_attrs.signature]

def lines : List Bytes := reply.common_lines server_attrs ++ reply.headers

def head : Bytes := render CR LF (reply.lines server_attrs)

def text : Bytes := reply.head server_attrs ++ reply.body

/-- The head without the common lines. -/
def rest : Bytes := write_lines CR LF reply.headers ++ [CR, LF]

theorem head_eq : reply.head server_attrs
    = write_lines CR LF (reply.common_lines server_attrs) ++ reply.rest := by
  rw [head, render, lines, write_lines_append, rest, List.append_assoc]

end Reply

def content_length (n : Nat) : Bytes := str "Content-Length: " ++ number_text n
def connection_close : Bytes := str "Connection: close"
def connection_keep_alive : Bytes := str "Connection: keep-alive"

def error_body (message : Bytes) : Bytes := body_1 ++ (message ++ body_2)

/-- The reply of `_response_error`. -/
def error_reply (status : Nat) (message date : Bytes) : Reply where
  status := status
  message := message
  date := date
  headers := [str "Content-Type: text/html; charset=UTF-8",
    content_length (body_1.length + message.length + body_2.length), connection_close]
  body := error_body message

/-- The reply of `response_options`. -/
def options_reply (date : Bytes) : Reply where
  status := 200
  message := str "OK"
  date := date
  headers := [str "Allow: GET, POST, OPTIONS", str "Content-Length: 0", connection_keep_alive]
  body := []

/-- The reply of `_response_cgi` for an output of `n` bytes, of which `body`
    is sent. -/
def cgi_reply (n : Nat) (body date : Bytes) : Reply where
  status := 200
  message := str "OK"
  date := date
  headers := [str "Content-Type: text/plain; charset=UTF-8", content_length n,
    connection_keep_alive]
  body := body

/-- The headers of a file up to its length. -/
def file_headers (content_type etag : Bytes) (n : Nat) : List Bytes :=
  [str "Content-Type: " ++ (content_type ++ str "; charset=UTF-8"), str "ETag: " ++ etag,
    content_length n]

/-- The reply of `response_get` for a file, if `last_lines` follow the length. -/
def file_reply (content_type etag : Bytes) (n : Nat) (last_lines : List Bytes)
    (body date : Bytes) : Reply where
  status := 200
  message := str "OK"
  date := date
  headers := file_headers content_type etag n ++ last_lines
  body := body

/-- The end of the head of a file: what `c_last_modified` holds, be it a line
    or not, and the line about the connection. -/
def last_part (c_last_modified : Bytes) : Bytes :=
  c_last_modified ++ (connection_keep_alive ++ [CR, LF, CR, LF])

/-- What `response_get` sends for a file. -/
def file_text (server_attrs : Config) (content_type etag : Bytes) (n : Nat)
    (c_last_modified body date : Bytes) : Bytes :=
  write_lines CR LF ((file_reply content_type etag n [] body date).lines server_attrs)
    ++ (last_part c_last_modified ++ body)

/-- Where the end of the head is made of lines, a reply is sent. -/
theorem file_text_eq (server_attrs : Config) (content_type etag : Bytes) (n : Nat)
    {c_last_modified : Bytes} {last_lines : List Bytes}
    (h : render CR LF last_lines = last_part c_last_modified) (body date : Bytes) :
    file_text server_attrs content_type etag n c_last_modified body date
      = (file_reply content_type etag n last_lines body date).text server_attrs := by
  rw [file_text, ← h, Reply.text, Reply.head, Reply.lines, Reply.lines, file_reply, file_reply,
    List.append_nil, ← List.append_assoc (Reply.common_lines _ _), render, render,
    write_lines_append _ _ _ last_lines]
  simp only [List.append_assoc]
  rfl

/-- The reply of `response_get` for a tag that matches, read as a response.
    The connection line comes after the empty line that ends the head. -/
def not_modified_reply (date : Bytes) : Reply where
  status := 304
  message := str "Not Modified"
  date := date
  headers := []
  body := connection_keep_alive ++ [CR, LF, CR, LF]

/-! ### What the appends write -/

section Appending

variable {env : Env} {server_attrs : Config}

theorem Appends.of_eq {α : Type} {p : Building α} {text text' : Bytes} (h : Appends env p text)
    (heq : text = text') : Appends env p text' := heq ▸ h

theorem str_date : str "\r\nDate: " = CR :: LF :: str "Date: " := by decide

theorem str_server : str "\r\nServer: " = CR :: LF :: str "Server: " := by decide

theorem str_crlf : str "\r\n" = [CR, LF] := by decide

theorem str_content_length : str "\r\nContent-Length: " = CR :: LF :: str "Content-Length: " := by
  decide

theorem str_keep_alive :
    str "Connection: keep-alive\r\n\r\n" = connection_keep_alive ++ [CR, LF, CR, LF] := by
  decide

theorem append_common_headers_appends (reply : Reply) :
    Appends env (append_common_headers server_attrs reply.status reply.message reply.date)
      (write_lines CR LF (reply.common_lines server_attrs)) := by
  have h : Appends env
      (append_common_headers server_attrs reply.status reply.message reply.date)
      (str "HTTP/1.1 " ++ (number_text reply.status ++ (str " " ++ (reply.message ++
        (str "\r\nDate: " ++ (reply.date ++ (str "\r\nServer: " ++
          (server_attrs.signature ++ (str "\r\n" ++ []))))))))) :=
    .bind (.append_string _) fun _ => .bind (.append_number _) fun _ =>
      .bind (.append_string _) fun _ => .bind (.append_string _) fun _ =>
      .bind (.append_string _) fun _ => .bind (.append_string _) fun _ =>
      .bind (.append_string _) fun _ => .bind (.append_string _) fun _ =>
      .bind (.append_string _) fun _ => .pure ()
  refine h.of_eq ?_
  rw [str_date, str_server, str_crlf]
  simp [write_lines, Reply.common_lines]

theorem append_error_appends (status : Nat) (message date : Bytes) :
    Appends env (append_error message)
      ((error_reply status message date).rest ++ error_body message) := by
  have h : Appends env (append_error message)
      (str "Content-Type: text/html; charset=UTF-8\r\nContent-Length: " ++
        (number_text (body_1.length + message.length + body_2.length) ++
          (str "\r\nConnection: close\r\n\r\n" ++ (body_1 ++ (message ++ (body_2 ++ [])))))) :=
    .bind (.append_string _) fun _ => .bind (.append_number _) fun _ =>
      .bind (.append_string _) fun _ => .bind (.append_string _) fun _ =>
      .bind (.append_string _) fun _ => .bind (.append_string _) fun _ => .pure ()
  have htype : str "Content-Type: text/html; charset=UTF-8\r\nContent-Length: "
      = str "Content-Type: text/html; charset=UTF-8" ++ str "\r\nContent-Length: " :=
    str_append "Content-Type: text/html; charset=UTF-8" "\r\nContent-Length: "
  have hclose : str "\r\nConnection: close\r\n\r\n"
      = CR :: LF :: (connection_close ++ [CR, LF, CR, LF]) := by decide
  refine h.of_eq ?_
  rw [htype, str_content_length, hclose]
  simp [write_lines, Reply.rest, error_reply, error_body, content_length]

theorem append_options_appends (date : Bytes) :
    Appends env append_options (options_reply date).rest := by
  have h : Appends env append_options
      (str "Allow: GET, POST, OPTIONS\r\n" ++ (str "Content-Length: 0\r\n" ++
        (str "Connection: keep-alive\r\n\r\n" ++ []))) :=
    .bind (.append_string _) fun _ => .bind (.append_string _) fun _ =>
      .bind (.append_string _) fun _ => .pure ()
  refine h.of_eq ?_
  have hbytes : str "Allow: GET, POST, OPTIONS\r\n" ++ (str "Content-Length: 0\r\n" ++
      (str "Connection: keep-alive\r\n\r\n" ++ [])) = (options_reply []).rest := by decide
  exact hbytes

theorem append_cgi_appends (n : Nat) (body date : Bytes) :
    Appends env (append_cgi n) (cgi_reply n body date).rest := by
  have h : Appends env (append_cgi n)
      (str "Content-Type: text/plain; charset=UTF-8\r\nContent-Length: " ++ (number_text n ++
        (str "\r\nConnection: keep-alive\r\n\r\n" ++ []))) :=
    .bind (.append_string _) fun _ => .bind (.append_number _) fun _ =>
      .bind (.append_string _) fun _ => .pure ()
  have htype : str "Content-Type: text/plain; charset=UTF-8\r\nContent-Length: "
      = str "Content-Type: text/plain; charset=UTF-8" ++ str "\r\nContent-Length: " :=
    str_append "Content-Type: text/plain; charset=UTF-8" "\r\nContent-Length: "
  have hkeep : str "\r\nConnection: keep-alive\r\n\r\n"
      = str "\r\n" ++ str "Connection: keep-alive\r\n\r\n" :=
    str_append "\r\n" "Connection: keep-alive\r\n\r\n"
  refine h.of_eq ?_
  rw [htype, str_content_length, hkeep, str_crlf, str_keep_alive]
  simp [write_lines, Reply.rest, cgi_reply, content_length]

theorem append_not_modified_appends (date : Bytes) :
    Appends env append_not_modified
      ((not_modified_reply date).rest ++ (not_modified_reply date).body) := by
  have h : Appends env append_not_modified
      (str "\r\nConnection: keep-alive\r\n\r\n" ++ []) :=
    .bind (.append_string _) fun _ => .pure ()
  have hbytes : str "\r\nConnection: keep-alive\r\n\r\n" ++ []
      = (not_modified_reply []).rest ++ (not_modified_reply []).body := by decide
  exact h.of_eq hbytes

theorem append_file_headers_appends (content_type etag : Bytes) (n : Nat)
    (c_last_modified : Bytes) :
    Appends env (append_file_headers content_type etag n c_last_modified)
      (write_lines CR LF (file_headers content_type etag n) ++ last_part c_last_modified) := by
  have h : Appends env (append_file_headers content_type etag n c_last_modified)
      (str "Content-Type: " ++ (content_type ++ (str "; charset=UTF-8\r\n" ++ (str "ETag: " ++
        (etag ++ (str "\r\nContent-Length: " ++ (number_text n ++ (str "\r\n" ++
          (c_last_modified ++ (str "Connection: keep-alive\r\n\r\n" ++ [])))))))))) :=
    .bind (.append_string _) fun _ => .bind (.append_string _) fun _ =>
      .bind (.append_string _) fun _ => .bind (.append_string _) fun _ =>
      .bind (.append_string _) fun _ => .bind (.append_string _) fun _ =>
      .bind (.append_number _) fun _ => .bind (.append_string _) fun _ =>
      .bind (.append_string _) fun _ => .bind (.append_string _) fun _ => .pure ()
  have htype : str "; charset=UTF-8\r\n" = str "; charset=UTF-8" ++ str "\r\n" :=
    str_append "; charset=UTF-8" "\r\n"
  refine h.of_eq ?_
  rw [htype, str_content_length, str_keep_alive, str_crlf]
  simp [write_lines, file_headers, last_part, content_length]

end Appending

/-! ### Room for the texts -/

/-- What `strftime` leaves is bounded, and so is the signature, if the
    buffers cannot grow. -/
def HasRoom (server_attrs : Config) (env : Env) : Prop :=
  (∀ t, env.realloc t = true) ∨
    (server_attrs.signature.length ≤ 3000 ∧ (∀ t, (env.current_date t).length ≤ 100) ∧
      ∀ last_modified, (env.c_last_modified last_modified).length ≤ 100)

section Lengths

variable (server_attrs : Config)

theorem length_write_common (reply : Reply) :
    (write_lines CR LF (reply.common_lines server_attrs)).length
      ≤ reply.message.length + reply.date.length + server_attrs.signature.length + 50 := by
  have hnumber := length_number_text reply.status
  have h₁ : (str "HTTP/1.1 ").length = 9 := rfl
  have h₂ : (str " ").length = 1 := rfl
  have h₃ : (str "Date: ").length = 6 := rfl
  have h₄ : (str "Server: ").length = 8 := rfl
  simp only [write_lines, Reply.common_lines, List.flatMap_cons, List.flatMap_nil,
    List.length_append, List.length_cons, List.length_nil, h₁, h₂, h₃, h₄]
  omega

theorem length_error_rest (status : Nat) (message date : Bytes) :
    ((error_reply status message date).rest ++ error_body message).length
      ≤ message.length + 200 := by
  have hnumber := length_number_text (body_1.length + message.length + body_2.length)
  have h₁ : (str "Content-Type: text/html; charset=UTF-8").length = 38 := rfl
  have h₂ : (str "Content-Length: ").length = 16 := rfl
  have h₃ : connection_close.length = 17 := rfl
  have h₄ : body_1.length = 19 := rfl
  have h₅ : body_2.length = 5 := rfl
  simp only [Reply.rest, error_reply, error_body, content_length, write_lines, List.flatMap_cons,
    List.flatMap_nil, List.length_append, List.length_cons, List.length_nil, h₁, h₂, h₃, h₄,
    h₅] at hnumber ⊢
  omega

theorem length_options_rest (date : Bytes) : (options_reply date).rest.length ≤ 200 := by
  have h : (options_reply []).rest.length ≤ 200 := by decide
  exact h

theorem length_cgi_rest (n : Nat) (body date : Bytes) :
    (cgi_reply n body date).rest.length ≤ 200 := by
  have hnumber := length_number_text n
  have h₁ : (str "Content-Type: text/plain; charset=UTF-8").length = 39 := rfl
  have h₂ : (str "Content-Length: ").length = 16 := rfl
  have h₃ : connection_keep_alive.length = 22 := rfl
  simp only [Reply.rest, cgi_reply, content_length, write_lines, List.flatMap_cons,
    List.flatMap_nil, List.length_append, List.length_cons, List.length_nil, h₁, h₂, h₃]
  omega

theorem length_file_rest (content_type etag : Bytes) (n : Nat) (c_last_modified : Bytes) :
    (write_lines CR LF (file_headers content_type etag n) ++ last_part c_last_modified).length
      ≤ content_type.length + etag.length + c_last_modified.length + 200 := by
  have hnumber := length_number_text n
  have h₁ : (str "Content-Type: ").length = 14 := rfl
  have h₂ : (str "; charset=UTF-8").length = 15 := rfl
  have h₃ : (str "ETag: ").length = 6 := rfl
  have h₄ : (str "Content-Length: ").length = 16 := rfl
  have h₅ : connection_keep_alive.length = 22 := rfl
  simp only [file_headers, last_part, content_length, write_lines, List.flatMap_cons,
    List.flatMap_nil, List.length_append, List.length_cons, List.length_nil, h₁, h₂, h₃, h₄, h₅]
  omega

end Lengths

end Rask
