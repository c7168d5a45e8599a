import Moorgate.Audit.Chain
import Moorgate.Auth.Timeouts
import Moorgate.Framework.Base.Text
import Moorgate.Framework.Base.Utf8

/-!
# The record of brokered actions: `dbbroker`, `k8sbroker`

`query` hands a statement to a database and `proxy` a request to a cluster. Each such action shall
leave an audit event that names who did it, the target, and the address it came from. The event is
written after the action, under the context of the request, which a client that leaves cancels;
`proxy` writes none when no response came back; and the address is taken from a header that the
client chooses. `actions_recorded_iff` has the conditions under which the record is complete.
-/

namespace Moorgate.Brokers

open Framework Models Store Auth Audit

/-! ## Requests and addresses -/

/-- `forwardedFor` is the header `X-Forwarded-For`, empty when there is none. -/
structure BrokerRequest where
  principal : Principal
  (remoteAddr forwardedFor : String)

/-- The host that `net.SplitHostPort` returns. -/
def splitHostPort (hostport : List Char) : Option (List Char) :=
  if ':' ∉ hostport then none
  else
    match hostport with
    | '[' :: rest =>
      -- the port has to follow the bracket that closes the host
      let host := rest.takeWhile (· ≠ ']')
      let port := (rest.dropWhile (· ≠ ']')).drop 1
      if cutLast ':' hostport = '[' :: (host ++ [']']) ∧ '[' ∉ rest ∧ ']' ∉ port then some host
        else none
    | _ =>
      let host := cutLast ':' hostport
      if ':' ∈ host ∨ '[' ∈ hostport ∨ ']' ∈ hostport then none else some host

def remoteHost (remoteAddr : String) : String :=
  match splitHostPort remoteAddr.toList with
  | none => remoteAddr
  | some host => String.ofList host

def clientIP (r : BrokerRequest) : String :=
  if r.forwardedFor ≠ "" then trimSpace (String.ofList (r.forwardedFor.toList.takeWhile (· ≠ ',')))
  else String.ofList (cutLast ':' r.remoteAddr.toList)

section

variable {host port : List Char}

theorem splitHostPort_plain (hhost : ∀ c ∈ host, c ≠ ':' ∧ c ≠ '[' ∧ c ≠ ']')
    (hport : ∀ c ∈ port, c ≠ ':' ∧ c ≠ '[' ∧ c ≠ ']') :
    splitHostPort (host ++ ':' :: port) = some host := by
  have hcut : cutLast ':' (host ++ ':' :: port) = host := cutLast_append fun h => (hport _ h).1 rfl
  have hcolon : ':' ∉ host := fun h => (hhost _ h).1 rfl
  have hopening : '[' ∉ host ++ ':' :: port := by
    simp only [List.mem_append, List.mem_cons, not_or]
    exact ⟨fun h => (hhost _ h).2.1 rfl, by decide, fun h => (hport _ h).2.1 rfl⟩
  have hclosing : ']' ∉ host ++ ':' :: port := by
    simp only [List.mem_append, List.mem_cons, not_or]
    exact ⟨fun h => (hhost _ h).2.2 rfl, by decide, fun h => (hport _ h).2.2 rfl⟩
  unfold splitHostPort
  rw [if_neg (by simp)]
  split
  · rename_i rest hbracket
    rw [hbracket] at hopening
    exact absurd List.mem_cons_self hopening
  · rw [hcut, if_neg (by simp only [hcolon, hopening, hclosing, or_self, not_false_eq_true])]

theorem splitHostPort_bracketed (hhost : ∀ c ∈ host, c ≠ '[' ∧ c ≠ ']')
    (hport : ∀ c ∈ port, c ≠ ':' ∧ c ≠ '[' ∧ c ≠ ']') :
    splitHostPort ('[' :: (host ++ ']' :: ':' :: port)) = some host := by
  have hcut : cutLast ':' ('[' :: (host ++ ']' :: ':' :: port)) = '[' :: (host ++ [']']) := by
    have h : cutLast ':' (('[' :: (host ++ [']'])) ++ ':' :: port) = '[' :: (host ++ [']']) :=
      cutLast_append fun h => (hport _ h).1 rfl
    simpa using h
  have hspan := span_ne (v := ']' :: ':' :: port) (fun h => (hhost _ h).2 rfl) (.inr ⟨_, rfl⟩)
  have hopening : '[' ∉ host ++ ']' :: ':' :: port := by
    simp only [List.mem_append, List.mem_cons, not_or]
    exact ⟨fun h => (hhost _ h).1 rfl, by decide, by decide, fun h => (hport _ h).2.1 rfl⟩
  have hrest : ']' ∉ ':' :: port := by
    simp only [List.mem_cons, not_or]
    exact ⟨by decide, fun h => (hport _ h).2.2 rfl⟩
  unfold splitHostPort
  rw [if_neg (by simp)]
  split
  · rename_i rest heq
    obtain rfl := (List.cons.inj heq).2
    rw [hspan.1, hspan.2, hcut]
    exact if_pos ⟨rfl, hopening, hrest⟩
  · next hother => exact absurd rfl (hother _)

end

/-! ## The context of a request -/

/-- `gone` is the first use of the context that fails, because the client has left. -/
def alive (gone : Option ℕ) (use : ℕ) : Bool := gone.all fun k => decide (use < k)

def contextCanceled : String := "context canceled"

def underContext {α : Type} (gone : Option ℕ) (use : ℕ) (x : Except String α) : Except String α :=
  if alive gone use then x else .error contextCanceled

inductive Submission (α : Type) where
  | unsent (err : String)
  | sent (result : Except String α)

namespace Submission

variable {α : Type}

def handed : Submission α → Bool
  | .unsent _ => false
  | .sent _ => true

def result : Submission α → Except String α
  | .unsent err => .error err
  | .sent result => result

end Submission

/-! ## What a handler does -/

structure Target where
  kind : String
  id : UUID
deriving DecidableEq

structure QueryResult where
  columns : List String
  rows : List (List String)
  rowCount : ℕ
  command : String
  truncated : Bool
  document : String

inductive Reply where
  | error (status : ℕ) (message : String)
  | result (res : QueryResult)
  | forwarded (status : ℕ)

/-- `handed` is the target that something was handed to; `event` is what is passed to
`AppendAudit`, and `present` whether the client is still there then. -/
structure Outcome where
  handed : Option Target
  event : Option AuditEvent
  present : Bool
  reply : Reply

def refuse (status : ℕ) (message : String) : Outcome := ⟨none, none, true, .error status message⟩

/-- Details of events, before `json.Marshal`. -/
inductive AuditDetail where
  | query (database engine dbUser : String) (sql : ByteString) (ok : Bool) (rows : ℕ)
  | proxy (cluster method path : String) (status : ℕ)

/-- Go's library: `json.Marshal`, `strings.ToLower`, `%q`, whether a PEM has a certificate,
and whether `http.NewRequest` takes a method and a URL. -/
structure Library where
  marshal : AuditDetail → String
  (toLower quote : String → String)
  certificates : String → Bool
  requestable : String → String → Bool

def auditEvent (r : BrokerRequest) (action : String) (t : Target) (ip detail : String) :
    AuditEvent where
  actorId := some r.principal.userID
  actorName := r.principal.username
  action := action
  targetKind := t.kind
  targetId := t.id.string
  ip := ip
  detail := some detail

/-! ## `dbbroker` -/

def maxSQLLen : ℕ := 100000

structure Database where
  id : UUID
  (name engine : String)
  credentialID : Option UUID

/-- What a query meets. `database` and `credential` are what the store and the vault have,
`dial` and `connect` whether the database is reached, `submit` what the driver does. -/
structure QueryInput where
  id : Option UUID
  body : Option ByteString
  gone : Option ℕ
  database : Option Database
  credential : UUID → Except String String
  (dial connect : Except String Unit)
  submit : Submission QueryResult

section

variable (G : Library) (r : BrokerRequest) (i : QueryInput)

def normalizeEngine (e : String) : String :=
  let e := G.toLower (trimSpace e)
  if e = "" then "postgres" else e

/-- The part of `execute` that the drivers do. -/
def runDriver : Submission QueryResult :=
  match underContext i.gone 4 i.connect with
  | .error err => .unsent err
  | .ok _ =>
    if alive i.gone 5 then
      match i.submit with
      | .unsent err => .unsent err
      | .sent result => .sent (underContext i.gone 6 result)
    else .unsent contextCanceled

def execute (db : Database) : Submission QueryResult :=
  let engine := normalizeEngine G db.engine
  if engine = "mongodb" then runDriver i
  else
    match underContext i.gone 3 i.dial with
    | .error err => .unsent ("reach database via jump host: " ++ err)
    | .ok _ =>
      if engine ∈ ["postgres", "mysql", "mariadb", "sqlserver"] then runDriver i
      else .unsent ("unsupported engine " ++ G.quote db.engine)

def truncate (s : ByteString) (n : ℕ) : ByteString :=
  if s.length ≤ n then s else s.take n ++ utf8 "…"

def databaseIP : String := if r.remoteAddr ≠ "" then clientIP r else ""

def runQuery (db : Database) (dbUser : String) (sql : ByteString) : Outcome :=
  let s := execute G i db
  let target : Target := ⟨"database", db.id⟩
  let ok := s.result.toOption.isSome
  let rows := (s.result.toOption.map QueryResult.rowCount).getD 0
  let detail := AuditDetail.query db.name db.engine dbUser (truncate sql 2000) ok rows
  ⟨if s.handed then some target else none,
    -- whatever came of the statement, the event is passed on
    some (auditEvent r "db.query" target (databaseIP r) (G.marshal detail)),
    alive i.gone 7,
    match s.result with
    | .error err => .error 502 ("query failed: " ++ err)
    | .ok res => .result res⟩

def query : Outcome :=
  match i.id, i.body with
  | none, _ => refuse 400 "invalid id"
  | some _, none => refuse 400 "invalid body"
  | some _, some body =>
    let sql := trimSpaceBytes body
    if sql = [] then refuse 400 "sql is required"
    else if maxSQLLen < sql.length then refuse 400 "statement too large"
    else
      match if alive i.gone 0 then i.database else none with
      | none => refuse 404 "database not found"
      | some db =>
        match db.credentialID with
        | none => refuse 400 "attach a vault credential to this database before connecting"
        | some credID =>
          match underContext i.gone 1 (i.credential credID) with
          | .error err => refuse 502 ("credential unavailable: " ++ err)
          | .ok dbUser => runQuery G r i db dbUser sql

end

/-! ## `k8sbroker` -/

structure Cluster where
  (name apiServer : String)
  credentialID : Option UUID
  insecureTLS : Bool
  caCert : String

/-- What a proxied request meets; `submit` is what `client.Do` does, with the status of the
response. -/
structure ProxyInput where
  id : Option UUID
  (method path rawQuery : String)
  gone : Option ℕ
  cluster : Option Cluster
  credential : UUID → Except String String
  submit : Submission ℕ

section

variable (G : Library) (r : BrokerRequest) (i : ProxyInput)

def dialCluster : Except String Cluster :=
  match if alive i.gone 0 then i.cluster else none with
  | none => .error "cluster not found"
  | some cluster =>
    match cluster.credentialID with
    | none => .error "attach a vault credential (bearer token) to this cluster first"
    | some credID =>
      match underContext i.gone 1 (i.credential credID) with
      | .error err => .error ("credential unavailable: " ++ err)
      | .ok _ =>
        if cluster.insecureTLS = false ∧ cluster.caCert ≠ "" ∧
          G.certificates cluster.caCert = false then
          .error "cluster CA certificate is invalid"
        else .ok cluster

/-- The path without a leading slash, below the address of the API server. -/
def trimSlash (path : String) : String :=
  match path.toList with
  | '/' :: rest => String.ofList rest
  | _ => path

def upstreamURL (cluster : Cluster) : String :=
  let upstream := cluster.apiServer ++ "/" ++ trimSlash i.path
  if i.rawQuery ≠ "" then upstream ++ "?" ++ i.rawQuery else upstream

/-- `client.Do` under the context: sending, and waiting for the response. -/
def doRequest : Submission ℕ :=
  if alive i.gone 2 then
    match i.submit with
    | .unsent err => .unsent err
    | .sent response => .sent (underContext i.gone 3 response)
  else .unsent contextCanceled

/-- `proxy` from `client.Do` on. -/
def forward (id : UUID) (cluster : Cluster) : Outcome :=
  let s := doRequest i
  let target : Target := ⟨"k8s_cluster", id⟩
  match s.result with
  | .error err =>
    -- nothing is recorded, whether the request was sent or not
    ⟨if s.handed then some target else none, none, true,
      .error 502 ("cluster unreachable: " ++ err)⟩
  | .ok status =>
    let detail := AuditDetail.proxy cluster.name i.method ("/" ++ trimSlash i.path) status
    ⟨some target, some (auditEvent r "k8s.proxy" target (clientIP r) (G.marshal detail)),
      alive i.gone 4, .forwarded status⟩

def proxy : Outcome :=
  match i.id with
  | none => refuse 400 "invalid id"
  | some id =>
    match dialCluster G i with
    | .error err => refuse 502 err
    | .ok cluster =>
      if G.requestable i.method (upstreamURL i cluster) then forward G r i id cluster
      else refuse 400 "bad upstream request"

end

/-! ## The record -/

inductive Brokered where
  | query (i : QueryInput)
  | proxy (i : ProxyInput)

def serve (G : Library) (r : BrokerRequest) : Brokered → Outcome
  | .query i => query G r i
  | .proxy i => proxy G r i

/-- The database that the events go to, and what an append takes from outside. -/
structure AuditLog where
  env : AuditEnv
  key : Key
  guc : String
  now : Instant
  id : UUID

/-- `_, _ = AppendAudit(r.Context(), ev)`. -/
def AuditLog.after (L : AuditLog) (o : Outcome) (db : AuditDb) : AuditDb :=
  match o.event with
  | none => db
  | some e => if o.present then (appendAudit L.env L.key L.guc L.now L.id e db).2 else db

/-- An event for the target was appended that names the actor and the host of `RemoteAddr`. -/
def Recorded (L : AuditLog) (r : BrokerRequest) (t : Target) (before after : AuditDb) : Prop :=
  ∃ row, after.rows = before.rows ++ [row] ∧ row.actorId = some r.principal.userID ∧
    row.actorName = nullIf r.principal.username ∧ row.targetKind = t.kind ∧
    row.targetId = t.id.string ∧ castOrNull L.env.castInet (remoteHost r.remoteAddr) = some row.ip

/-- The columns take the values of the event. -/
structure Accepted (L : AuditLog) (e : AuditEvent) : Prop where
  tenant : (L.env.castUUID (auditRowTenant L.env L.guc)).isSome
  ip : (castOrNull L.env.castInet e.ip).isSome
  detail : (L.env.castJsonb (e.detail.getD emptyObject)).isSome
  row : L.env.insertable e

namespace Brokered

def responded : Brokered → Prop
  | .query _ => True
  | .proxy i => ∃ status, (doRequest i).result = .ok status

/-- The client is there when the event is appended. -/
def present : Brokered → Bool
  | .query i => alive i.gone 7
  | .proxy i => alive i.gone 4

def ip (r : BrokerRequest) : Brokered → String
  | .query _ => databaseIP r
  | .proxy _ => clientIP r

end Brokered

/-- The action is recorded: the event is written and reaches the database, which takes it,
and the address in it is that of the peer. -/
structure Audited (G : Library) (L : AuditLog) (r : BrokerRequest) (q : Brokered) : Prop where
  responded : q.responded
  present : q.present
  accepted : ∀ e, (serve G r q).event = some e → Accepted L e
  address : castOrNull L.env.castInet (q.ip r) = castOrNull L.env.castInet (remoteHost r.remoteAddr)

/-! ## Appending -/

section

variable {L : AuditLog} {e : AuditEvent} {alg : Int16} {prev : String} {seq : ℤ} {row : AuditRow}

theorem insertedRow_eq_some_of_accepted (h : Accepted L e) (alg : Int16) (prev : String) (seq : ℤ) :
    ∃ row, insertedRow L.env L.guc alg prev seq L.id L.now e = some row ∧ row.actorId = e.actorId ∧
      row.actorName = nullIf e.actorName ∧ row.targetKind = e.targetKind ∧
      row.targetId = e.targetId ∧ castOrNull L.env.castInet e.ip = some row.ip := by
  obtain ⟨tenant, htenant⟩ := Option.isSome_iff_exists.mp h.tenant
  obtain ⟨ip, hip⟩ := Option.isSome_iff_exists.mp h.ip
  obtain ⟨detail, hdetail⟩ := Option.isSome_iff_exists.mp h.detail
  have hrow : insertedRow L.env L.guc alg prev seq L.id L.now e =
      some ⟨seq, L.id, tenant, e.actorId, nullIf e.actorName, e.action, e.targetKind, e.targetId,
      ip, detail,
        prev, "", L.now, alg⟩ := by
    simp only [insertedRow, htenant, hip, hdetail, Option.bind_eq_bind, Option.bind_some,
      if_pos h.row]
  exact ⟨_, hrow, rfl, rfl, rfl, rfl, hip⟩

theorem accepted_of_insertedRow (h : insertedRow L.env L.guc alg prev seq L.id L.now e = some row) :
    Accepted L e := by
  simp only [insertedRow, Option.bind_eq_bind, Option.bind_eq_some_iff] at h
  obtain ⟨tenant, htenant, ip, hip, detail, hdetail, h⟩ := h
  obtain ⟨hrow, -⟩ := Option.ite_none_right_eq_some.mp h
  exact ⟨Option.isSome_of_eq_some htenant, Option.isSome_of_eq_some hip,
    Option.isSome_of_eq_some hdetail, hrow⟩

theorem appendAudit_of_accepted (h : Accepted L e) (db : AuditDb) :
    ∃ row, (appendAudit L.env L.key L.guc L.now L.id e db).2.rows = db.rows ++ [row] ∧
    row.actorId = e.actorId ∧
      row.actorName = nullIf e.actorName ∧ row.targetKind = e.targetKind ∧
      row.targetId = e.targetId ∧ castOrNull L.env.castInet e.ip = some row.ip := by
  obtain ⟨row, hins, hrest⟩ := insertedRow_eq_some_of_accepted h
    (if L.key.length > 0 then auditAlgHMAC else auditAlgLegacy) (lastHash db.rows) (db.lastSeq + 1)
  unfold appendAudit
  dsimp only
  rw [hins]
  exact ⟨_, rfl, hrest⟩

theorem appendAudit_of_not_accepted (h : ¬ Accepted L e) (db : AuditDb) :
    (appendAudit L.env L.key L.guc L.now L.id e db).2.rows = db.rows := by
  unfold appendAudit
  dsimp only
  split
  · rfl
  · next row hins => exact absurd (accepted_of_insertedRow hins) h

end

/-! ## What the handlers leave -/

section

variable {G : Library} {L : AuditLog} {r : BrokerRequest} {q : Brokered} {t : Target}

/-- What was handed to a target has an event that names the actor and the target, but for
a proxied request without a response. -/
theorem serve_of_handed (h : (serve G r q).handed = some t) :
    ((serve G r q).event = none ∧ ¬ q.responded) ∨
      ((∃ action detail, (serve G r q).event = some (auditEvent r action t (q.ip r) detail)) ∧
        (serve G r q).present = q.present ∧ q.responded) := by
  revert h
  cases q with
  | query i =>
    dsimp only [serve]
    fun_cases query G r i with
    | case8 =>
      intro h
      obtain ⟨-, ⟨⟩⟩ := Option.ite_none_right_eq_some.mp h
      exact .inr ⟨⟨_, _, rfl⟩, rfl, trivial⟩
    | _ => rintro ⟨⟩
  | proxy i =>
    dsimp only [serve]
    fun_cases proxy G r i with
    | case3 id _ cluster =>
      unfold forward
      dsimp only
      cases hresult : (doRequest i).result with
      | error err =>
        refine fun _ => .inl ⟨rfl, ?_⟩
        rintro ⟨status, hok⟩
        cases hresult.symm.trans hok
      | ok status =>
        rintro ⟨⟩
        exact .inr ⟨⟨_, _, rfl⟩, rfl, status, hresult⟩
    | _ => rintro ⟨⟩

theorem not_recorded_of_rows {db after : AuditDb} (h : after.rows = db.rows) :
    ¬ Recorded L r t db after := by
  rintro ⟨row, hrows, -⟩
  rw [h] at hrows
  exact List.ne_nil_of_length_pos (by simp) (List.self_eq_append_right.mp hrows)

theorem recorded_append_iff (action ip detail : String) (db : AuditDb) :
    Recorded L r t db
      (appendAudit L.env L.key L.guc L.now L.id (auditEvent r action t ip detail) db).2 ↔
      Accepted L (auditEvent r action t ip detail) ∧
        castOrNull L.env.castInet ip = castOrNull L.env.castInet (remoteHost r.remoteAddr) := by
  by_cases haccepted : Accepted L (auditEvent r action t ip detail)
  · rw [and_iff_right haccepted]
    obtain ⟨row, hrows, hactor, hname, hkind, hid, hip⟩ := appendAudit_of_accepted haccepted db
    constructor
    · rintro ⟨row', hrows', -, -, -, -, hip'⟩
      -- one row is appended, so it is the row in question
      rw [hrows] at hrows'
      cases List.append_cancel_left hrows'
      rw [hip', ← hip]
      rfl
    · intro haddress
      exact ⟨row, hrows, hactor, hname, hkind, hid, haddress.symm.trans hip⟩
  · exact iff_of_false (not_recorded_of_rows (appendAudit_of_not_accepted haccepted db)) fun h =>
      haccepted h.1

end

/-- Exactly when what is handed to a target is recorded. -/
theorem actions_recorded_iff (G : Library) (L : AuditLog) (r : BrokerRequest) (q : Brokered)
    (db : AuditDb) :
    (∀ t, (serve G r q).handed = some t → Recorded L r t db (L.after (serve G r q) db)) ↔
      ((serve G r q).handed.isSome → Audited G L r q) := by
  cases hhanded : (serve G r q).handed with
  | none => simp
  | some t =>
    have hstep : Recorded L r t db (L.after (serve G r q) db) ↔ Audited G L r q := by
      rcases serve_of_handed hhanded with ⟨hevent, hno⟩ | ⟨⟨action, detail, hevent⟩, hpresent,
        hresponded⟩
      · have hafter : L.after (serve G r q) db = db := by
          unfold AuditLog.after
          rw [hevent]
        rw [hafter]
        exact iff_of_false (not_recorded_of_rows rfl) fun h => hno h.responded
      · unfold AuditLog.after
        rw [hevent]
        dsimp only
        rw [hpresent]
        by_cases hthere : q.present
        · rw [if_pos hthere, recorded_append_iff]
          constructor
          · rintro ⟨haccepted, haddress⟩
            refine ⟨hresponded, hthere, fun e he => ?_, haddress⟩
            rw [hevent] at he
            cases he
            exact haccepted
          · intro h
            exact ⟨h.accepted _ hevent, h.address⟩
        · rw [if_neg hthere]
          exact iff_of_false (not_recorded_of_rows rfl) fun h => hthere h.present
    constructor
    · exact fun h _ => hstep.mp (h t rfl)
    · rintro h t' ht'
      cases ht'
      exact hstep.mpr (h rfl)

/-! ## Actions that are not recorded -/

def brokerLibrary : Library := ⟨fun _ => emptyObject, id, id, fun _ => true, fun _ _ => true⟩

def operatorRequest (remoteAddr forwardedFor : String) : BrokerRequest :=
  ⟨⟨.ofNat 4, .ofNat 14, "operator", false, ["Database.Connect"], false, .ofNat 1⟩, remoteAddr,
    forwardedFor⟩

def ordersQuery (gone : Option ℕ) : QueryInput where
  id := some (.ofNat 60)
  body := some (utf8 "DELETE FROM orders")
  gone := gone
  database := some ⟨.ofNat 60, "orders", "postgres", some (.ofNat 61)⟩
  credential := fun _ => .ok "app"
  dial := .ok ()
  connect := .ok ()
  submit := .sent (.ok ⟨[], [], 0, "DELETE 12", false, ""⟩)

/-- The connection breaks once the request is sent. -/
def podDeletion : ProxyInput where
  id := some (.ofNat 70)
  method := "DELETE"
  path := "api/v1/namespaces/default/pods"
  rawQuery := ""
  gone := none
  cluster := some ⟨"prod", "https://10.8.0.9:6443", some (.ofNat 71), true, ""⟩
  credential := fun _ => .ok "token"
  submit := .sent (.error "EOF")

/-- The column takes what is written with the characters of an address. -/
def brokerLog : AuditLog where
  env := { plainEnv with
    castInet :=
      fun s => if s.toList.all ("0123456789abcdef.:".toList.contains ·) then some s else none }
  key := [7]
  guc := ""
  now := 100
  id := .ofNat 80

/-- The action is done and the log does not say so. -/
def Unrecorded (r : BrokerRequest) (q : Brokered) : Prop :=
  ∃ t, (serve brokerLibrary r q).handed = some t ∧
    ¬ Recorded brokerLog r t .empty (brokerLog.after (serve brokerLibrary r q) .empty)

/-- Nothing is recorded when the client leaves before the append, when the connection to the
cluster breaks, and when the header or the brackets of an IPv6 host are no address; and the
header gives an address that is not that of the peer. -/
theorem brokered_actions_unrecorded :
    Unrecorded (operatorRequest "203.0.113.9:41000" "") (.query (ordersQuery (some 7))) ∧
      Unrecorded (operatorRequest "203.0.113.9:41000" "") (.proxy podDeletion) ∧
      Unrecorded (operatorRequest "203.0.113.9:41000" "x") (.query (ordersQuery none)) ∧
      Unrecorded (operatorRequest "[2001:db8::7]:0" "") (.query (ordersQuery none)) ∧
      Unrecorded (operatorRequest "203.0.113.9:41000" "198.51.100.1, 10.0.0.2")
        (.query (ordersQuery none)) := by
  refine ⟨⟨_, rfl, not_recorded_of_rows (by decide +kernel)⟩,
    ⟨_, rfl, not_recorded_of_rows (by decide +kernel)⟩, ⟨_, rfl,
    not_recorded_of_rows (by decide +kernel)⟩, ⟨_, rfl, not_recorded_of_rows (by decide +kernel)⟩,
    ⟨_, rfl, ?_⟩⟩
  rintro ⟨row, hrows, -, -, -, -, hip⟩
  have hlogged : (brokerLog.after (serve brokerLibrary
      (operatorRequest "203.0.113.9:41000" "198.51.100.1, 10.0.0.2") (.query (ordersQuery none)))
      .empty).rows.map (·.ip) = [some "198.51.100.1"] := by decide +kernel
  have hpeer : castOrNull brokerLog.env.castInet (remoteHost "203.0.113.9:41000") =
      some (some "203.0.113.9") := by
    decide +kernel
  rw [hrows, List.map_append] at hlogged
  have hsame : some (some "203.0.113.9") = some (some "198.51.100.1") :=
    hpeer.symm.trans (hip.trans (congrArg some (List.singleton_inj.mp hlogged)))
  exact absurd hsame (by decide)

end Moorgate.Brokers
