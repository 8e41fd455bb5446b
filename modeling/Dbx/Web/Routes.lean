import Dbx.Text.Basic

/-!
# The API route table

The routes `main` registers on the API router, grouped by the first segment of their path, and
the matching of a request path against a registered route. A path parameter matches one
nonempty segment, a trailing catch-all the nonempty rest of the path.

## Main definitions

* `apiRoutes`: the registered routes of a build
* `registered`: the request paths that some registered route matches

## Main results

* `registered_head`: the first segment of a registered path is neither empty nor `api`
-/

namespace Dbx.Web

/-- The HTTP methods. -/
inductive Method
  | get | head | post | put | delete | connect | options | trace | patch
  deriving DecidableEq, Repr

/-- The routes under one first segment that answer the same methods: each is `/head` followed by
a tail. -/
structure RouteGroup where
  head : String
  methods : List Method
  tails : List String

/-- The routes registered in every build. -/
def baseRoutes : List RouteGroup :=
  [⟨"migration", [.get], ["/status"]⟩,
   ⟨"migration", [.post], ["/start", "/retry", "/cleanup-backups"]⟩,
   ⟨"database-backups", [.post], ["", "/\x7bid\x7d/files/\x7bindex\x7d/restore"]⟩,
   ⟨"database-backups", [.get], ["/\x7bid\x7d/files/\x7bindex\x7d"]⟩,
   ⟨"auth", [.post], ["/login", "/setup", "/change-password", "/logout"]⟩,
   ⟨"auth", [.get], ["/check"]⟩,
   ⟨"connection", [.post], ["/test", "/test-info", "/test-ssh-tunnel", "/connect", "/database-info",
     "/database-info/save", "/write-unlock", "/write-unlock/lock", "/write-unlock/state",
     "/final-proxy-port", "/disconnect", "/check-health", "/is-open", "/prewarm",
     "/session-credential-status", "/forget-session-credential",
     "/replace-nacos-session-credential", "/identifier-quote", "/close-database", "/save",
     "/mcp/add", "/mcp/duplicate", "/mcp/remove", "/salesforce-oauth-browser-authorize",
     "/salesforce-oauth-device-start", "/salesforce-oauth-device-poll",
     "/salesforce-oauth-refresh", "/salesforce-oauth-password-login"]⟩,
   ⟨"connection", [.get], ["/liveness-events", "/idle-closed-events", "/list"]⟩,
   ⟨"salesforce", [.get], ["/current-user"]⟩,
   ⟨"plugins", [.get],
    ["", "/trusted-keys", "/repositories", "/marketplace/catalogs", "/active", "/events",
     "/\x7bpluginId\x7d/assets/\x7b*path\x7d", "/\x7bpluginId\x7d/ui",
     "/\x7bpluginId\x7d/ui/\x7b*path\x7d"]⟩,
   ⟨"plugins", [.post],
    ["/trusted-keys/save", "/trusted-keys/remove", "/repositories/save", "/repositories/remove",
     "/marketplace/install", "/install", "/rollback", "/uninstall", "/activate", "/stop",
     "/invoke", "/connection-action", "/notify", "/binary", "/filesystem/list", "/filesystem/read",
     "/filesystem/write", "/filesystem/create-directory", "/filesystem/delete",
     "/filesystem/rename"]⟩,
   ⟨"jdbc", [.get, .post], ["/drivers", "/drivers/maven"]⟩,
   ⟨"jdbc", [.get], ["/drivers/local", "/plugin/status"]⟩,
   ⟨"jdbc", [.post],
    ["/drivers/prestosql", "/plugin/install", "/plugin/install-local", "/plugin/uninstall"]⟩,
   ⟨"jdbc", [.delete], ["/drivers/maven/\x7bbundle_id\x7d", "/drivers/local/\x7bbundle_id\x7d",
     "/drivers/\x7bname\x7d"]⟩,
   ⟨"system", [.get], ["/fonts"]⟩,
   ⟨"ssh", [.get], ["/config-hosts", "/prompts", "/prompts/pending"]⟩,
   ⟨"ssh", [.post], ["/prompts/resolve"]⟩,
   ⟨"tunnel-profiles", [.get], ["/list"]⟩,
   ⟨"tunnel-profiles", [.post], ["/save", "/test"]⟩,
   ⟨"agents", [.get],
    ["/installed-local", "/installed", "/installed/\x7bdbType\x7d", "/storage-usage", "/runtime",
     "/progress/\x7boperationId\x7d"]⟩,
   ⟨"agents", [.delete], ["/download-cache"]⟩,
   ⟨"agents", [.post],
    ["/runtime/stop", "/runtime/restart", "/install", "/cancel-install", "/upgrade-all",
     "/cancel-upgrade-all", "/update-blockers", "/uninstall", "/import-offline", "/import-driver",
     "/import-jar", "/invalidate-registry-cache", "/reinstall-jre", "/uninstall-jre"]⟩,
   ⟨"agents", [.get, .post], ["/java-runtime"]⟩,
   ⟨"schema", [.get],
    ["/databases", "/database-metadata", "/xugu/tablespaces", "/sqlserver/completion-context",
     "/doris/catalogs", "/doris/catalog-databases", "/sqlserver/linked-servers",
     "/sqlserver/linked-server-catalogs", "/sqlserver/linked-server-schemas",
     "/sqlserver/linked-server-tables", "/sqlserver/column-metadata", "/mysql/auto-increment",
     "/schemas", "/tables", "/table-comment", "/objects", "/object-statistics",
     "/completion-objects", "/object-source", "/event-info", "/custom-type-details", "/columns",
     "/all-columns", "/data-types", "/indexes", "/reference-key-columns", "/reference-keys",
     "/foreign-keys", "/foreign-keys-for-database", "/triggers", "/constraints", "/partitions",
     "/table-partition-status", "/table-partitioning", "/invalid-indexes", "/subpartitions",
     "/functions", "/diff-routines", "/routine-operation", "/sequences", "/rules", "/owners",
     "/table-owner", "/extensions", "/available-extensions", "/event-triggers", "/ddl"]⟩,
   ⟨"schema", [.post],
    ["/database-storage", "/completion-assistant", "/oracle-type-data", "/oracle-type-evolution",
     "/routine-save", "/routine-plan", "/routine-recovery", "/routine-execute",
     "/routine-operation-references"]⟩,
   ⟨"schema", [.get, .post], ["/oracle-type-management-snapshot"]⟩,
   ⟨"schema", [.post, .get], ["/cache"]⟩,
   ⟨"schema", [.delete], ["/cache-prefix"]⟩,
   ⟨"plugin", [.post], ["/table-metadata", "/data/query", "/data/grants", "/data/grant"]⟩,
   ⟨"docs", [.post],
    ["/snapshot", "/annotations/load", "/annotations/apply", "/annotations/save", "/export"]⟩,
   ⟨"dialect", [.get], ["/data-types"]⟩,
   ⟨"schema-diff", [.post], ["/prepare", "/generate-sync-sql", "/generate-sync-plan"]⟩,
   ⟨"tab-runtime-cache", [.post, .get, .delete], [""]⟩,
   ⟨"tab-runtime-cache", [.get], ["/metadata"]⟩,
   ⟨"tab-runtime-cache", [.post], ["/prune"]⟩,
   ⟨"tab-runtime-cache", [.delete], ["/owner"]⟩,
   ⟨"query", [.post],
    ["/execute", "/execute-conditional-update", "/execute-multi", "/execute-batch",
     "/execute-script", "/execute-in-transaction", "/execute-script-2pc",
     "/analyze-sql-references", "/find-statement-at-cursor", "/prepare-pagination-plan",
     "/build-sorted-sql", "/build-explain-sql", "/build-dropped-file-preview-sql",
     "/get-explain-info", "/plugin-plan-capabilities", "/plugin-estimated-plan",
     "/build-create-user-sql", "/build-table-select-sql", "/build-database-search-sql",
     "/build-database-search-columns-sql", "/build-database-search-probe-sql",
     "/build-database-structure-search-sql", "/supports-database-structure-search",
     "/build-search-result-where", "/build-rename-object-sql", "/build-rename-database-sql",
     "/build-rename-database-preflight-sql", "/build-create-database-sql",
     "/build-sqlite-attach-database-sql", "/build-drop-object-sql", "/build-drop-table-sql",
     "/build-drop-table-child-object-sql", "/build-empty-table-sql", "/build-truncate-table-sql",
     "/build-vacuum-table-sql", "/build-mysql-auto-increment-sql", "/build-drop-database-sql",
     "/build-create-schema-sql", "/build-update-database-properties-sql", "/build-drop-schema-sql",
     "/build-duplicate-table-structure-sql", "/build-copy-table-data-sql",
     "/build-oracle-type-management-sql", "/build-executable-object-source-statements",
     "/validate-oracle-executable-object-source", "/fingerprint-oracle-routine-object-source",
     "/build-executable-object-source-sql", "/build-editable-object-source",
     "/build-routine-rename-object-source-statements", "/rewrite-oracle-routine-references",
     "/rewrite-oracle-table-references", "/build-view-ddl-sql", "/parse-oracle-object-name",
     "/build-oracle-view-rename-source", "/review-oracle-view-rename-source",
     "/build-table-structure-change-sql", "/build-table-owner-change-sql",
     "/build-table-partition-operation-sql", "/build-create-partitioned-table-sql",
     "/preview-sqlite-table-structure-change", "/apply-sqlite-table-structure-change",
     "/build-create-table-sql", "/build-single-column-alter-sql", "/analyze-editability",
     "/prepare-data-grid-save", "/extract-data-grid-selection",
     "/build-data-grid-copy-update-statements", "/build-data-grid-copy-insert-statement",
     "/build-dml-change-preview-sql", "/build-data-grid-context-filter-condition",
     "/build-data-grid-column-value-filter-condition",
     "/build-data-grid-column-values-filter-condition",
     "/build-data-grid-column-distinct-values-sql", "/build-data-grid-count-sql",
     "/build-data-grid-conditional-update-sql", "/build-hive-table-properties-sql",
     "/build-export-insert-statements", "/build-export-sql-insert", "/build-database-sql-export",
     "/cancel", "/cancel-conditional-update", "/close-session", "/large-value/chunk",
     "/large-value/release", "/large-value/download", "/large-value/export",
     "/close-client-session"]⟩,
   ⟨"query", [.get], ["/data-grid-extractor-openapi.json", "/large-value/download/\x7bid\x7d"]⟩,
   ⟨"data-compare", [.post],
    ["/prepare", "/prepare-from-tables", "/prepare-missing-target", "/build-sync-plan"]⟩,
   ⟨"export", [.post],
    ["/query-result-json", "/query-result-markdown", "/query-result-html", "/database",
     "/database/cancel", "/table", "/table/cancel", "/query-result", "/query-result/cancel"]⟩,
   ⟨"export", [.get], ["/database/progress/\x7bexportId\x7d", "/database/download/\x7bexportId\x7d",
     "/table/progress/\x7bexportId\x7d", "/table/download/\x7bexportId\x7d",
     "/query-result/progress/\x7bexportId\x7d", "/query-result/download/\x7bexportId\x7d"]⟩,
   ⟨"redis", [.post],
    ["/list-databases", "/scan-keys", "/scan-keys-batch", "/key-metadata-batch", "/scan-values",
     "/get-value", "/get-raw-value", "/get-ttl", "/get-stream-entries", "/get-stream-groups",
     "/get-stream-consumers", "/get-stream-pending", "/load-more", "/set-string", "/delete-key",
     "/rename-key", "/hash-set", "/hash-del", "/hash-field-update", "/hash-field-set-ttl",
     "/hash-field-set-expire-at", "/list-push", "/list-set", "/list-remove", "/set-add",
     "/set-remove", "/zadd", "/zset-update", "/stream-add", "/json-set", "/check-json-module",
     "/set-ttl", "/set-expire-at", "/set-keys-ttl", "/set-keys-expire-at", "/delete-keys",
     "/delete-keys-by-pattern", "/flush-db", "/execute-command", "/pubsub/publish", "/slowlog-get",
     "/cluster-master-nodes"]⟩,
   ⟨"redis", [.get], ["/pubsub/ws"]⟩,
   ⟨"etcd", [.post],
    ["/supports-ttl", "/list-prefix", "/get", "/put", "/delete", "/rename", "/history", "/status",
     "/preflight", "/compact", "/defrag", "/watch/start", "/watch/poll", "/watch/stop",
     "/lease/list", "/lease/call", "/auth/call"]⟩,
   ⟨"zookeeper", [.post], ["/list-prefix", "/get", "/put", "/delete"]⟩,
   ⟨"consul", [.post], ["/capabilities", "/txn", "/rename-key", "/blocking-query", "/domain-watch",
     "/cancel-blocking", "/list-prefix", "/list-recursive", "/search", "/search-progress",
     "/cancel-search", "/export-bundle", "/import-preview", "/import-execute",
     "/delete-prefix-preview", "/delete-prefix-execute", "/get", "/put", "/delete",
     "/prepared-query/list", "/prepared-query/read", "/prepared-query/create",
     "/prepared-query/update", "/prepared-query/delete", "/prepared-query/execute",
     "/prepared-query/explain", "/event/list", "/event/fire", "/coordinate/nodes",
     "/operator/read", "/operator/snapshot/generate", "/operator/snapshot/restore",
     "/operator/autopilot/update", "/operator/raft/transfer", "/operator/raft/remove",
     "/operator/keyring/write", "/operator/license/write", "/status/leader", "/status/peers",
     "/agent/self", "/agent/members", "/agent/metrics", "/catalog/datacenters", "/catalog/nodes",
     "/catalog/services", "/catalog/service-nodes", "/catalog/node-services", "/health/node",
     "/health/checks", "/health/service", "/health/state", "/agent/services", "/agent/service",
     "/agent/checks", "/agent/service/register", "/agent/service/deregister",
     "/agent/service/maintenance", "/agent/check/register", "/agent/check/deregister",
     "/agent/check/ttl", "/sessions", "/sessions/node", "/session", "/session/keys",
     "/session/destroy-impact", "/session/create", "/session/renew", "/session/destroy",
     "/lock/acquire", "/lock/release", "/acl/list", "/acl/token/self", "/acl/token/clone",
     "/acl/get", "/acl/apply", "/acl/references", "/acl/delete", "/enterprise/list",
     "/enterprise/get", "/enterprise/apply", "/enterprise/impact", "/enterprise/delete",
     "/mesh/config/list", "/mesh/config/get", "/mesh/config/apply", "/mesh/config/delete",
     "/mesh/intentions/list", "/mesh/intentions/get", "/mesh/intentions/get-exact",
     "/mesh/intentions/upsert", "/mesh/intentions/delete", "/mesh/intentions/delete-exact",
     "/mesh/intentions/match", "/mesh/intentions/check", "/mesh/discovery-chain",
     "/mesh/peerings/list", "/mesh/peerings/get", "/mesh/peerings/generate-token",
     "/mesh/peerings/establish", "/mesh/peerings/delete", "/mesh/exported-services/list",
     "/mesh/exported-services/apply"]⟩,
   ⟨"hbase", [.post],
    ["/table-schema", "/scan-rows", "/get-row", "/put-row", "/delete-row", "/create-table",
     "/delete-table"]⟩,
   ⟨"nacos", [.post],
    ["/test-connection", "/namespaces/list", "/sidebar/snapshot", "/namespaces/create",
     "/namespaces/update", "/namespaces/delete", "/configs/list", "/configs/get",
     "/configs/publish", "/configs/delete", "/configs/history/list", "/configs/history/get",
     "/configs/history/rollback", "/rnacos-console/captcha", "/rnacos-console/login",
     "/users/list", "/users/create", "/users/update", "/users/delete", "/roles/list",
     "/roles/assign", "/roles/remove", "/access/snapshot", "/access/operations/start",
     "/access/operations/get", "/access/operations/retry", "/access/operations/undo",
     "/services/list", "/services/get", "/services/create", "/services/update", "/services/delete",
     "/instances/list", "/instances/update", "/instances/register", "/instances/deregister",
     "/dashboard", "/raw", "/configs/search", "/configs/search/cancel", "/configs/export",
     "/configs/import/preview", "/configs/import/apply", "/configs/copy/preview",
     "/configs/copy/apply"]⟩,
   ⟨"mongo", [.post],
    ["/list-databases", "/list-collections", "/vector-collection-detail", "/create-database",
     "/drop-database", "/drop-collection", "/rename-collection", "/clone-collection",
     "/find-documents", "/parse-shell-command", "/explain-find", "/find-one", "/count-documents",
     "/server-version", "/collection-stats", "/aggregate-documents", "/distinct",
     "/list-index-specs", "/create-index", "/create-user", "/run-command", "/drop-indexes",
     "/insert-document", "/insert-documents", "/update-document", "/update-documents",
     "/replace-document", "/bulk-write", "/delete-document", "/delete-documents",
     "/find-one-and-update", "/find-one-and-replace", "/find-one-and-delete", "/import/preview",
     "/import/preview-source", "/import/source/release", "/import/execute", "/import/cancel",
     "/export", "/export/cancel", "/dump/catalog", "/dump/source", "/dump/source/release",
     "/dump/source/upload", "/dump/export", "/dump/restore", "/dump/cancel"]⟩,
   ⟨"mongo", [.get], ["/import/progress/\x7bimportId\x7d", "/export/progress/\x7bexportId\x7d",
     "/export/download/\x7bexportId\x7d", "/dump/upload-limit", "/dump/progress/\x7btaskId\x7d"]⟩,
   ⟨"vector", [.post],
    ["/collection-detail", "/drop-database", "/drop-collection", "/rename-collection"]⟩,
   ⟨"document-store", [.post],
    ["/list-databases", "/list-collections", "/find-documents", "/count-documents",
     "/dynamodb-describe-table", "/elasticsearch-count-documents", "/elasticsearch/index-metadata",
     "/elasticsearch/documents/delete-all", "/list-gridfs-buckets", "/create-gridfs-bucket",
     "/delete-gridfs-bucket", "/list-gridfs-files", "/download-gridfs-file", "/upload-gridfs-file",
     "/delete-gridfs-file", "/insert-document", "/update-document", "/delete-document",
     "/save-meilisearch-batch", "/meilisearch/search", "/meilisearch/documents/fetch",
     "/meilisearch/documents/get", "/meilisearch/settings/get", "/meilisearch/settings/update",
     "/meilisearch/stats", "/meilisearch/overview", "/meilisearch/index/create",
     "/meilisearch/index/delete", "/meilisearch/system/overview", "/meilisearch/keys/list",
     "/meilisearch/keys/get", "/meilisearch/keys/create", "/meilisearch/keys/update",
     "/meilisearch/keys/delete", "/meilisearch/tasks/list", "/meilisearch/tasks/get",
     "/meilisearch/tasks/cancel", "/meilisearch/tasks/delete",
       "/meilisearch/documents/delete-all"]⟩,
   ⟨"history", [.get, .delete], [""]⟩,
   ⟨"history", [.post], ["/save", "/search"]⟩,
   ⟨"history", [.get], ["/options"]⟩,
   ⟨"history", [.delete], ["/\x7bid\x7d"]⟩,
   ⟨"saved-sql", [.get, .post], [""]⟩,
   ⟨"saved-sql", [.get, .delete], ["/\x7bid\x7d"]⟩,
   ⟨"saved-sql", [.post], ["/\x7bid\x7d/default-content", "/folders"]⟩,
   ⟨"saved-sql", [.delete], ["/folders/\x7bid\x7d"]⟩,
   ⟨"ai", [.post, .get], ["/config", "/chat-selection", "/configs"]⟩,
   ⟨"ai", [.post],
    ["/provider-config", "/default-config", "/config-item", "/conversation", "/complete",
     "/stream", "/agent-stream", "/cancel-stream", "/tool-approval", "/plugin-tools/preview",
     "/test-connection", "/models", "/model-effort"]⟩,
   ⟨"ai", [.get], ["/provider-configs", "/conversations"]⟩,
   ⟨"ai", [.delete], ["/config/\x7bconfig_id\x7d", "/conversation/\x7bid\x7d"]⟩,
   ⟨"ai", [.get, .post], ["/plugin-tools/plugins"]⟩,
   ⟨"prompt-templates", [.get, .post], [""]⟩,
   ⟨"prompt-templates", [.delete], ["/\x7bid\x7d"]⟩,
   ⟨"prompt-templates", [.get, .put], ["/global-instructions"]⟩,
   ⟨"transfer", [.post], ["/start", "/ownership-preview", "/cancel", "/sort-tables-by-fk"]⟩,
   ⟨"transfer", [.get], ["/progress/\x7btransferId\x7d"]⟩,
   ⟨"task-runs", [.get], ["", "/\x7brun_id\x7d", "/\x7brun_id\x7d/items"]⟩,
   ⟨"sql-file", [.post],
    ["/preview", "/execute", "/preview/refresh", "/preview/release", "/tables", "/cancel",
     "/failure-log/text"]⟩,
   ⟨"sql-file", [.get], ["/progress/\x7bexecutionId\x7d", "/failure-log/\x7bexecutionId\x7d",
     "/failure-log/\x7bexecutionId\x7d/info"]⟩,
   ⟨"import", [.post], ["/preview", "/preview-source", "/source/release", "/execute", "/cancel"]⟩,
   ⟨"import", [.get], ["/progress/\x7bimportId\x7d"]⟩,
   ⟨"version", [.get], [""]⟩,
   ⟨"update", [.get], ["/check"]⟩,
   ⟨"changelog", [.get], [""]⟩,
   ⟨"layout", [.post, .get], ["/sidebar", "/table-vgroups"]⟩,
   ⟨"layout", [.delete], ["/table-vgroups/connection/\x7bconnection_id\x7d"]⟩,
   ⟨"app-settings", [.get, .post], ["/pinned-tree-node-ids"]⟩,
   ⟨"app-settings", [.get, .put],
    ["/mcp-policy", "/max-agent-turns", "/history-retention-limit", "/mcp-history-retention-limit",
     "/max-retries", "/sql-file-upload-max-bytes"]⟩,
   ⟨"app-settings", [.get], ["/mcp-http-status", "/web-capabilities"]⟩,
   ⟨"app-settings", [.put], ["/mcp-http"]⟩,
   ⟨"app-settings", [.post],
    ["/mcp-http/rotate-token", "/mcp-history-retention-cleanup", "/config/decrypt"]⟩,
   ⟨"cloud-sync", [.post],
    ["/webdav/test", "/webdav/password-status", "/webdav/save-password", "/webdav/forget-password",
     "/webdav/sync-secrets-status", "/webdav/save-sync-secrets-preference",
     "/webdav/forget-sync-secrets-passphrase", "/webdav/upload", "/catalog/local",
     "/webdav/inspect", "/webdav/download", "/snippet/test", "/snippet/token-status",
     "/snippet/save-token", "/snippet/forget-token", "/snippet/passphrase-status",
     "/snippet/save-passphrase", "/snippet/forget-passphrase", "/snippet/settings",
     "/snippet/save-id", "/snippet/retry-legacy-cleanup", "/snippet/upload", "/snippet/inspect",
     "/snippet/download"]⟩]

/-- The routes of builds with DuckDB sidecar support. -/
def duckdbSidecarRoutes : List RouteGroup :=
  [⟨"query", [.post], ["/build-duckdb-attach-database-sql"]⟩]

/-- The routes `add_mq_routes` registers in builds with message-queue administration. -/
def mqRoutes : List RouteGroup :=
  [⟨"mq", [.post],
    ["/test-connection", "/tenants/list", "/tenants/get", "/tenants/create", "/tenants/update",
     "/tenants/delete", "/namespaces/list", "/namespaces/create", "/namespaces/delete",
     "/namespaces/policies", "/topics/list", "/topics/list-page", "/topics/create",
     "/topics/delete", "/topics/update-partitions", "/topics/stats", "/topics/internal-stats",
     "/topics/route", "/topics/alter-config", "/topics/skip-accumulation", "/exchanges/list",
     "/exchanges/list-page", "/exchanges/create", "/exchanges/delete", "/bindings/list",
     "/bindings/bind", "/bindings/unbind", "/messages/view", "/messages/query-by-key",
     "/messages/query-by-topic", "/messages/trace", "/subscriptions/list", "/subscriptions/enrich",
     "/kafka/consumer-groups", "/subscriptions/create", "/subscriptions/delete",
     "/subscriptions/skip-messages", "/subscriptions/reset-cursor", "/subscriptions/clear-backlog",
     "/consumers/group-config/get", "/consumers/group-config/alter",
     "/subscriptions/peek-messages", "/subscriptions/expire-messages", "/producers/list",
     "/consumers/list", "/topics/unload", "/client-connections/list", "/client-connections/close",
     "/channels/list", "/policies/publish-rate", "/policies/dispatch-rate",
     "/policies/subscribe-rate", "/policies/backlog-quota", "/policies/retention",
     "/policies/effective", "/policies/list", "/policies/set", "/policies/delete",
     "/permissions/grant", "/permissions/revoke", "/permissions/list", "/users/list",
     "/users/create", "/users/delete", "/user-permissions/list", "/user-permissions/grant",
     "/user-permissions/revoke", "/tokens/issue", "/tokens/list", "/monitoring/backlog",
     "/monitoring/cluster-info", "/overview", "/nodes", "/raw", "/send-message"]⟩]

/-- The cargo features that select routes. -/
structure Features where
  duckdbSidecar : Bool
  mqAdmin : Bool
  deriving DecidableEq, Repr

variable (features : Features)

/-- The routes of the API router. -/
def apiRoutes : List RouteGroup :=
  baseRoutes ++ (if features.duckdbSidecar then duckdbSidecarRoutes else []) ++
    (if features.mqAdmin then mqRoutes else [])

/-! ## Matching -/

/-- A segment of a route path. -/
inductive RouteSegment
  | static (text : Text)
  | parameter
  | catchAll
  deriving DecidableEq, Repr

/-- A route: its segments, and the methods it answers. -/
structure Route where
  pattern : List RouteSegment
  methods : List Method

/-- The segment that its text in a route path denotes. -/
def routeSegment : Text → RouteSegment
  | '\x7b' :: '*' :: _ => .catchAll
  | '\x7b' :: _ => .parameter
  | text => .static text

/-- The segments of a path, empty unless the path starts with a slash. -/
def pathSegments (path : Text) : List Text :=
  match Text.stripPrefix ['/'] path with
  | some rest => Text.splitOn (· == '/') rest
  | none => []

theorem pathSegments_eq_cons {path segment : Text} {segments : List Text}
    (h : pathSegments path = segment :: segments) :
    ∃ rest, path = '/' :: rest ∧ Text.splitOn (· == '/') rest = segment :: segments := by
  unfold pathSegments at h
  split at h
  · next rest hrest => exact ⟨rest, Text.stripPrefix_eq_some.mp hrest, h⟩
  · cases h

/-- The routes of a group. -/
def RouteGroup.routes (group : RouteGroup) : List Route :=
  group.tails.map fun tail =>
    ⟨.static group.head.toList :: (pathSegments tail.toList).map routeSegment, group.methods⟩

/-- Matching of path segments against the segments of a route. -/
def matchesRoute : List RouteSegment → List Text → Bool
  | [], [] => true
  | .static text :: pattern, segment :: path => segment == text && matchesRoute pattern path
  | .parameter :: pattern, segment :: path => !segment.isEmpty && matchesRoute pattern path
  | [.catchAll], path => path != [] && path != [[]]
  | _, _ => false

/-- The precedence among the routes that match one path: at the first segment where they differ
a static segment goes before a parameter, and a parameter before a catch-all. -/
def takesPrecedence : List RouteSegment → List RouteSegment → Bool
  | .static _ :: pattern, .static _ :: pattern' => takesPrecedence pattern pattern'
  | .parameter :: pattern, .parameter :: pattern' => takesPrecedence pattern pattern'
  | .static _ :: _, _ => true
  | .parameter :: _, .catchAll :: _ => true
  | _, _ => false

/-- The first of the given routes in the order of precedence. -/
def selectRoute : List Route → Option Route
  | [] => none
  | route :: routes =>
    match selectRoute routes with
    | none => some route
    | some other => if takesPrecedence other.pattern route.pattern then some other else some route

/-- The route that a request path inside the API router selects. -/
def dispatch (path : Text) : Option Route :=
  selectRoute (((apiRoutes features).flatMap RouteGroup.routes).filter fun route =>
    matchesRoute route.pattern (pathSegments path))

/-- A route answers its own methods, and `HEAD` where it answers `GET`. -/
def Route.handles (route : Route) (method : Method) : Bool :=
  route.methods.contains method || (method == .head && route.methods.contains .get)

/-- The requests inside the API router that have a handler. -/
def registered (method : Method) (path : Text) : Bool :=
  (dispatch features path).any (·.handles method)

theorem selectRoute_mem {routes : List Route} {route : Route}
    (h : selectRoute routes = some route) :
    route ∈ routes := by
  induction routes generalizing route with
  | nil => cases h
  | cons first routes ih =>
    unfold selectRoute at h
    cases hrest : selectRoute routes with
    | none => simp_all
    | some other =>
      have hother := ih hrest
      simp only [hrest] at h
      split at h <;> cases h <;> simp [hother]

theorem mem_apiRoutes {features : Features} {group : RouteGroup}
    (h : group ∈ apiRoutes features) : group ∈ baseRoutes ++ duckdbSidecarRoutes ++ mqRoutes := by
  unfold apiRoutes at h
  simp only [List.mem_append] at h ⊢
  refine h.imp (Or.imp_right fun h => ?_) fun h => ?_
  · split at h
    · exact h
    · simp at h
  · split at h
    · exact h
    · simp at h

theorem routeHeads_ne :
    ((baseRoutes ++ duckdbSidecarRoutes ++ mqRoutes).map RouteGroup.head).all
      (fun head => head.toList != [] && head.toList != "api".toList) := by
  decide +kernel

/-- The first segment of a path with a handler is neither empty nor `api`. -/
theorem registered_head {features : Features} {method : Method} {path : Text}
    (h : registered features method path) :
    ∃ rest segment segments, path = '/' :: rest ∧
      Text.splitOn (· == '/') rest = segment :: segments ∧ segment ≠ [] ∧
      segment ≠ "api".toList := by
  obtain ⟨route, hroute, -⟩ := (Option.any_eq_true _ _).mp h
  obtain ⟨hmem, hmatch⟩ := List.mem_filter.mp (selectRoute_mem hroute)
  obtain ⟨group, hgroup, hmem⟩ := List.mem_flatMap.mp hmem
  obtain ⟨tail, -, rfl⟩ := List.mem_map.mp hmem
  have hhead := List.all_eq_true.mp routeHeads_ne group.head
    (List.mem_map_of_mem (mem_apiRoutes hgroup))
  simp only [Bool.and_eq_true, bne_iff_ne] at hhead
  cases hseg : pathSegments path with
  | nil => simp [hseg, matchesRoute] at hmatch
  | cons segment segments =>
    obtain ⟨rest, hpath, hrest⟩ := pathSegments_eq_cons hseg
    simp only [hseg, matchesRoute, Bool.and_eq_true, beq_iff_eq] at hmatch
    exact ⟨rest, segment, segments, hpath, hrest, hmatch.1 ▸ hhead.1, hmatch.1 ▸ hhead.2⟩

end Dbx.Web
