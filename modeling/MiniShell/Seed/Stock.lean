import MiniShell.Text.Lines
import MiniShell.Tree.Edit

/-!
# The stock tree

Every session starts over the same small tree: a home with some notes, and logs to read and to
search.
-/

namespace MiniShell.Stock

def systemLog : List String :=
  [ "Oct 17 08:00:01 ubuntu-prod-01 CRON[20114]: (root) CMD (/usr/local/bin/backup.sh)",
    "Oct 17 08:00:03 ubuntu-prod-01 systemd[1]: Started Daily apt download activities.",
    "Oct 17 08:02:17 ubuntu-prod-01 kernel: [312044.120331] EXT4-fs (sda1): mounted filesystem with ordered data mode",
    "Oct 17 08:05:42 ubuntu-prod-01 systemd[1]: Starting Cleanup of Temporary Directories...",
    "Oct 17 08:05:42 ubuntu-prod-01 systemd[1]: systemd-tmpfiles-clean.service: Succeeded.",
    "Oct 17 08:11:09 ubuntu-prod-01 kernel: [312591.004712] ata2.00: exception Emask 0x0 SAct 0x0 SErr 0x0 action 0x6 frozen",
    "Oct 17 08:11:09 ubuntu-prod-01 kernel: [312591.004790] ata2.00: failed command: READ DMA",
    "Oct 17 08:11:10 ubuntu-prod-01 kernel: [312591.918244] blk_update_request: I/O error, dev sdb, sector 1953525",
    "Oct 17 08:15:00 ubuntu-prod-01 CRON[20388]: (www-data) CMD (php /var/www/namour/cron.php)",
    "Oct 17 08:17:31 ubuntu-prod-01 mysqld[1187]: [Warning] Aborted connection 4412 to db: 'namour' user: 'app'",
    "Oct 17 08:20:55 ubuntu-prod-01 systemd[1]: apache2.service: Main process exited, code=killed, status=9/KILL",
    "Oct 17 08:20:56 ubuntu-prod-01 systemd[1]: apache2.service: Failed with result 'signal'.",
    "Oct 17 08:21:01 ubuntu-prod-01 systemd[1]: Started The Apache HTTP Server.",
    "Oct 17 08:30:12 ubuntu-prod-01 kernel: [313733.551020] Out of memory: Killed process 18233 (php-fpm7.4)" ]

def authenticationLog : List String :=
  [ "Oct 17 07:58:10 ubuntu-prod-01 sshd[19980]: Accepted publickey for namour from 10.0.4.21 port 51122 ssh2",
    "Oct 17 07:58:10 ubuntu-prod-01 sshd[19980]: pam_unix(sshd:session): session opened for user namour by (uid=0)",
    "Oct 17 08:03:44 ubuntu-prod-01 sshd[20201]: Failed password for invalid user admin from 185.220.101.7 port 40112 ssh2",
    "Oct 17 08:03:47 ubuntu-prod-01 sshd[20201]: Failed password for invalid user admin from 185.220.101.7 port 40112 ssh2",
    "Oct 17 08:03:51 ubuntu-prod-01 sshd[20201]: Connection closed by invalid user admin 185.220.101.7 port 40112 [preauth]",
    "Oct 17 08:09:02 ubuntu-prod-01 sudo:   namour : TTY=pts/0 ; PWD=/home/namour ; USER=root ; COMMAND=/usr/bin/apt update",
    "Oct 17 08:09:02 ubuntu-prod-01 sudo: pam_unix(sudo:session): session opened for user root by namour(uid=0)",
    "Oct 17 08:12:30 ubuntu-prod-01 sshd[20455]: Failed password for root from 45.134.26.88 port 53020 ssh2",
    "Oct 17 08:12:31 ubuntu-prod-01 sshd[20455]: error: maximum authentication attempts exceeded for root from 45.134.26.88 port 53020 ssh2 [preauth]",
    "Oct 17 08:25:19 ubuntu-prod-01 systemd-logind[845]: New session 311 of user randy." ]

def accessLog : List String :=
  [ "10.0.4.21 - - [17/Oct/2026:08:01:12 +0000] \"GET / HTTP/1.1\" 200 5123 \"-\" \"Mozilla/5.0\"",
    "10.0.4.21 - - [17/Oct/2026:08:01:13 +0000] \"GET /static/app.js HTTP/1.1\" 200 88412 \"/\" \"Mozilla/5.0\"",
    "66.249.66.1 - - [17/Oct/2026:08:04:55 +0000] \"GET /robots.txt HTTP/1.1\" 200 68 \"-\" \"Googlebot/2.1\"",
    "185.220.101.7 - - [17/Oct/2026:08:06:20 +0000] \"GET /wp-login.php HTTP/1.1\" 404 492 \"-\" \"python-requests/2.31\"",
    "185.220.101.7 - - [17/Oct/2026:08:06:21 +0000] \"POST /xmlrpc.php HTTP/1.1\" 404 492 \"-\" \"python-requests/2.31\"",
    "10.0.4.33 - randy [17/Oct/2026:08:14:02 +0000] \"POST /upload HTTP/1.1\" 201 312 \"/upload\" \"curl/8.4.0\"",
    "10.0.4.33 - randy [17/Oct/2026:08:14:40 +0000] \"POST /upload HTTP/1.1\" 413 380 \"/upload\" \"curl/8.4.0\"",
    "10.0.4.21 - - [17/Oct/2026:08:20:51 +0000] \"GET /api/stats HTTP/1.1\" 502 351 \"/\" \"Mozilla/5.0\"",
    "10.0.4.21 - - [17/Oct/2026:08:21:05 +0000] \"GET /api/stats HTTP/1.1\" 200 1289 \"/\" \"Mozilla/5.0\"" ]

/-- The edits that make the stock tree. -/
def edits : List Edit :=
  [ .makeDirectory "/home/namour/projects",
    .write "/home/namour/.bash_history" (Text.joinLines ["ls -a", "cd /var/log", "neofetch", "clear"]),
    .write "/home/namour/notes.txt" "System monitoring dashboard is looking great.",
    .write "/home/namour/projects/README.md" "# My Projects",
    .makeDirectory "/var/log/apache2",
    .write "/var/log/syslog" (Text.joinLines systemLog),
    .write "/var/log/auth.log" (Text.joinLines authenticationLog),
    .write "/var/log/apache2/access.log" (Text.joinLines accessLog) ]

def populate (tree : Tree) : Except TreeError Tree :=
  tree.editAll edits

end MiniShell.Stock
