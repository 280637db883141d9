/-!
# Status codes

A response whose code starts with four blames the client and one that starts with five the
server; both are failures, and their codes have names.
-/

namespace LookupEngine.Http.Status

/-- The codes of failures that have a name. -/
def names : List (Nat × String) :=
  [(400, "Bad Request"), (401, "Unauthorized"), (402, "Payment Required"), (403, "Forbidden"),
    (404, "Not Found"), (405, "Method Not Allowed"), (406, "Not Acceptable"),
    (407, "Proxy Authentication Required"), (408, "Request Timeout"), (409, "Conflict"),
    (410, "Gone"), (411, "Length Required"), (412, "Precondition Failed"),
    (413, "Payload Too Large"), (414, "URI Too Long"), (415, "Unsupported Media Type"),
    (416, "Range Not Satisfiable"), (417, "Expectation Failed"), (418, "I'm a teapot"),
    (421, "Misdirected Request"), (422, "Unprocessable Entity"), (423, "Locked"),
    (424, "Failed Dependency"), (426, "Upgrade Required"), (428, "Precondition Required"),
    (429, "Too Many Requests"), (431, "Request Header Fields Too Large"),
    (451, "Unavailable For Legal Reasons"), (500, "Internal Server Error"),
    (501, "Not Implemented"), (502, "Bad Gateway"), (503, "Service Unavailable"),
    (504, "Gateway Timeout"), (505, "HTTP Version Not Supported"),
    (506, "Variant Also Negotiates"), (507, "Insufficient Storage"), (508, "Loop Detected"),
    (510, "Not Extended"), (511, "Network Authentication Required")]

def name (code : Nat) : String := (names.lookup code).getD "<unknown status code>"

def isClientError (code : Nat) : Bool := 400 ≤ code && code < 500

def isServerError (code : Nat) : Bool := 500 ≤ code && code < 600

/-- Whether a response sends the client elsewhere. -/
def isRedirect (code : Nat) : Bool := [301, 302, 303, 307, 308].contains code

/-- Whether a response never has a body. -/
def isBodiless (code : Nat) : Bool := code < 200 || code = 204 || code = 304

end LookupEngine.Http.Status
