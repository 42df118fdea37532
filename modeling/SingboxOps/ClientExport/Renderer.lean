import SingboxOps.Lib.Utf8Encode
import SingboxOps.ClientExport.Grammar

/-
  Printing the export of a client.

  The shell has read its facts into variables by the time it
  prints; whatever they hold goes into the template as it is.
-/

namespace SingboxOps.ClientExport

/- The variables the template is given. -/
structure Facts where
  server_ip : PyStr
  reality_port : PyStr
  reality_uuid : PyStr
  reality_server_name : PyStr
  public_key : PyStr
  short_id : PyStr
  hy_port : PyStr
  ishopping : PyStr
  hy_hopping_start : PyStr
  hy_hopping_end : PyStr
  hy_password : PyStr
  hy_server_name : PyStr
deriving DecidableEq

/- `^[0-9]+$` -/
def isDigits (s : PyStr) : Bool := decide (s ≠ []) && s.all isAsciiDigit

def Facts.hopping (f : Facts) : Bool :=
  decide (f.ishopping = pyStr "TRUE") && isDigits f.hy_hopping_start && isDigits f.hy_hopping_end

def Facts.formatted_range (f : Facts) : PyStr := f.hy_hopping_start ++ pyStr "-" ++ f.hy_hopping_end

def Facts.hy_clash_port_yaml (f : Facts) : List PyStr :=
  if f.hopping then
    [pyStr "    port: " ++ f.hy_port, pyStr "    ports: " ++ f.formatted_range, pyStr "    hop-interval: 30"]
  else [pyStr "    port: " ++ f.hy_port]

/- The template up to the proxies. -/
def templateHead : List PyStr := ["mixed-port: 7897", "allow-lan: true", "bind-address: \"*\"", "mode: rule",
    "log-level: info",
    "unified-delay: true",
    "ipv6: true",
    "profile:",
    "  store-selected: true",
    "  store-fake-ip: true",
    "dns:",
    "  enable: true",
    "  listen: \"0.0.0.0:53\"",
    "  ipv6: true",
    "  enhanced-mode: fake-ip",
    "  fake-ip-range: 198.18.0.1/16",
    "  default-nameserver:",
    "    - 223.5.5.5",
    "    - 8.8.8.8",
    "  nameserver:",
    "    - https://dns.alidns.com/dns-query",
    "    - https://doh.pub/dns-query",
    "  fallback:",
    "    - https://1.0.0.1/dns-query",
    "    - tls://dns.google",
    "  fallback-filter:",
    "    geoip: true",
    "    geoip-code: CN",
    "    ipcidr:",
    "      - 240.0.0.0/4",
    "",
    "tun:",
    "  enable: true",
    "  stack: mixed",
    "  device: Mihomo",
    "  mtu: 1420",
    "  auto-route: true",
    "  auto-redirect: true",
    "  auto-detect-interface: true",
    "  dns-hijack:",
    "    - any:53",
    "    - tcp://any:53",
    "",
    "proxies:"].map pyStr

/- The template from the proxy groups on. -/
def templateTail : List PyStr := ["", "proxy-groups:", "  - name: 节点选择", "    type: select",
    "    default-selected: 自动选择",
    "    proxies:",
    "      - Reality",
    "      - Hysteria2",
    "      - 自动选择",
    "      - DIRECT",
    "",
    "  - name: 自动选择",
    "    type: fallback",
    "    proxies:",
    "      - Reality",
    "      - Hysteria2",
    "    url: \"https://www.gstatic.com/generate_204\"",
    "    interval: 60",
    "    timeout: 5000",
    "    lazy: false",
    "    expected-status: \"204\"",
    "",
    "",
    "rules:",
    "  - GEOIP,LAN,DIRECT",
    "  - GEOIP,CN,DIRECT",
    "  - MATCH,节点选择",
    "",
    ""].map pyStr

def Facts.reality (f : Facts) : List PyStr := [pyStr "  - name: Reality", pyStr "    type: vless",
    pyStr "    server: " ++ f.server_ip,
    pyStr "    port: " ++ f.reality_port,
    pyStr "    uuid: " ++ f.reality_uuid,
    pyStr "    network: tcp",
    pyStr "    udp: true",
    pyStr "    tls: true",
    pyStr "    flow: xtls-rprx-vision",
    pyStr "    servername: " ++ f.reality_server_name,
    pyStr "    client-fingerprint: chrome",
    pyStr "    reality-opts:",
    pyStr "      public-key: " ++ f.public_key,
    pyStr "      short-id: " ++ f.short_id]

def Facts.hysteria (f : Facts) : List PyStr := [pyStr "  - name: Hysteria2", pyStr "    type: hysteria2",
    pyStr "    server: " ++ f.server_ip] ++
    f.hy_clash_port_yaml ++
    [pyStr "    password: " ++ f.hy_password, pyStr "    sni: " ++ f.hy_server_name,
      pyStr "    skip-cert-verify: true",
      pyStr "    alpn:",
      pyStr "      - h3"]

def Facts.lines (f : Facts) : List PyStr := templateHead ++ f.reality ++ [[]] ++ f.hysteria ++ templateTail

/- The text on standard output. -/
def cm_render_client_mihomo_yaml (f : Facts) : PyStr := [10].intercalate f.lines

-- Hop Ranges

/-
  What shell arithmetic makes of digits: a leading zero means
  octal, where 8 and 9 are an error, and a number wraps at 64
  bits.
-/
def shellValue (s : PyStr) : Option ℤ :=
  let wrap (n : ℕ) : ℤ := Int.bmod n (2 ^ 64)
  if s.head? = some 48 then
    if s.all (fun c => decide (48 ≤ c) && decide (c ≤ 55)) then
      some (wrap (s.foldl (fun n c => 8 * n + (c - 48)) 0))
    else none
  else some (wrap (s.foldl (fun n c => 10 * n + (c - 48)) 0))

/- A hop range that may be enabled, and so is stored. -/
def storesRange (first last : PyStr) : Bool := isDigits first && isDigits last &&
    match shellValue first, shellValue last with
    | some low, some high => decide (1 ≤ low) && decide (high ≤ 65535) && decide (low ≤ high)
    | _, _ => false

end SingboxOps.ClientExport
